import HotReload.Proofs.Graph.Coherent
import HotReload.Proofs.Service.Run
import HotReload.Proofs.Session.Trace

/-!
# Sessions stay coherent

A session is given a graph when its client is taken in, and another one where a change brings it.
Each of them was discovered whole, whatever happened to the files meanwhile: a reaction that is not
found leaves the session the graph that it had.  So its graph is coherent at every moment.

* `Connection.Serves`: a connection that was registered, and has handled changes since.
* `Connection.Serves.of_discovery`, `Connection.Serves.run`: as long as the files stay as they are, all
  that this takes of a resolver is that it numbers them apart at that time.
* `Connection.Traced.coherent`: what a change leaves is coherent.
* `Connection.Serves.graph_coherent`: a session's graph is always coherent.
-/

namespace HotReload

/-- The graph that a reaction brings is coherent. -/
theorem Progress.Known.coherent {s : Session} {change : Change} {heard : List Answer} {g : Graph}
    {reaction : Reaction} (known : Known s change heard (.settled (.ok (g, reaction))))
    (orderly : Orderly heard) (coherent : s.graph.Coherent s.entry) : g.Coherent s.entry := by
  rcases known.graph with rfl | ⟨answer, rest, rfl, answered⟩
  · exact coherent
  · exact answered.coherent (orderly.of_subset fun _ mem => List.mem_cons_of_mem _ mem)

namespace Connection

/-- A connection whose session was registered with a graph that was discovered, and that has handled
any changes since.  The modules that one discovery finds have the paths that were asked for and
numbers of their own; the files can change at any moment, and any question can fail. -/
inductive Serves {σ : Type} (r : Resolver σ) : Connection → σ → Prop where
  | registered {s s' : Service} {platform : String} {entry : Path} {sink : Sink}
      {heard : List Answer} {seed : Except ResolveFault Graph} {id : ConnectionId} {w : Worker}
      (sound : s.Sound) (answered : (Search.start platform entry).Answered heard seed)
      (orderly : Orderly heard) (h : s.enrol platform entry sink seed = (.ok id, s'))
      (here : s'.worker? id = some w) (st : σ) : Serves r w.connection st
  /-- A change was handled, or is being handled. -/
  | handled {c : Connection} {change : Change} {heard : List Answer} {moved : Moved} {st st' : σ}
      (t : Serves r c st) (h : Handling r c change st heard moved st') (orderly : Orderly heard) :
      Serves r moved.1 st'
  | stirred {c c' : Connection} {st st' : σ} (t : Serves r c st) (h : Stirs c st c' st') :
      Serves r c' st'

variable {c : Connection} {change : Change} {heard : List Answer} {moved : Moved}

/-! ### Files that stay as they are -/

section Still

variable {σ : Type} {r : Resolver σ} {st : σ} {v : Snapshot}

/-- A connection whose questions are answered as the snapshot answers them: the files stay as they
are, or there are no questions left but that for a build. -/
def Settled (r : Resolver σ) (v : Snapshot) (c : Connection) (st : σ) : Prop :=
  r.ShowsFrom st v ∨ ∃ job, c.cycle = some (.building job)

/-- A step of a cycle hears what the snapshot says. -/
theorem Settled.step {st' : σ} (h : Settled r v c st) (hs : c.step? r st = some (moved, st')) :
    (∀ a ∈ c.answers r st, a.Agrees v) ∧ (moved.2 = none → Settled r v moved.1 st') := by
  cases cycle : c.cycle with
  | none => simp [step?, cycle] at hs
  | some waits =>
    cases waits with
    | probing change probe =>
      rcases h with shown | ⟨job, building⟩
      · simp only [step?, cycle, Option.some.injEq, Prod.mk.injEq] at hs
        obtain ⟨rfl, rfl⟩ := hs
        simp only [answers, cycle, List.mem_singleton, forall_eq]
        exact ⟨Query.agrees_reply shown _, fun _ => .inl (Query.answer_of_showsFrom shown _).2⟩
      · rw [cycle] at building
        cases building
    | ordering job =>
      simp only [step?, cycle, Option.some.injEq, Prod.mk.injEq] at hs
      obtain ⟨rfl, -⟩ := hs
      simp only [answers, cycle]
      exact ⟨fun a mem => absurd mem List.not_mem_nil, fun _ => .inr ⟨job, rfl⟩⟩
    | building job =>
      simp only [step?, cycle] at hs
      split at hs
      · cases hs
      · next answer _ _ =>
        simp only [Option.some.injEq, Prod.mk.injEq] at hs
        obtain ⟨rfl, -⟩ := hs
        refine ⟨fun a mem e told => ?_, fun more => ?_⟩
        · -- what is heard of a build is no module
          simp only [answers, cycle, Option.mem_toList, Option.map_eq_some_iff] at mem
          obtain ⟨built, -, rfl⟩ := mem
          cases told
        · cases answer with
          | error e => exact absurd more (conclude_ends c _).ne_none
          | ok built => exact absurd more (conclude_ends c _).ne_none

/-- **All that a cycle hears** is what the snapshot says. -/
theorem Settled.hears (h : moved.2 = none → Settled r v moved.1 st) (fuel : Nat) :
    ∀ a ∈ Connection.hears r fuel moved st, a.Agrees v := by
  induction fuel generalizing moved st with
  | zero => exact fun a mem => absurd mem List.not_mem_nil
  | succ fuel ih =>
    obtain ⟨c, _ | o⟩ := moved
    · cases hs : c.step? r st with
      | none => simp [Connection.hears, hs]
      | some next =>
        obtain ⟨moved, st'⟩ := next
        obtain ⟨now, later⟩ := (h rfl).step hs
        intro a mem
        simp only [Connection.hears, hs] at mem
        exact (List.mem_append.mp mem).elim (now a) (ih later a)
    · exact fun a mem => absurd mem List.not_mem_nil

/-- A client is taken in with what a discovery finds. -/
theorem Serves.of_discovery {s s' : Service} {platform : String} {entry : Path} {sink : Sink}
    {g : Graph} {id : ConnectionId} {w : Worker} (sound : s.Sound) (shown : r.ShowsFrom st v)
    (apart : v.Apart) (found : (Search.discover r platform entry st).1 = .ok g)
    (h : s.enrol platform entry sink (.ok g) = (.ok id, s')) (here : s'.worker? id = some w)
    (st' : σ) : Serves r w.connection st' :=
  .registered sound (Search.answered_of_discover found) (Search.orderly_hears shown apart _ _) h
    here st'

/-- **A change is handled while the files stay as they are.** -/
theorem Serves.run (t : Serves r c st) (idle : c.cycle = none) (shown : r.ShowsFrom st v)
    (apart : v.Apart) (change : Change) :
    Serves r (c.run r change st).1.1 (c.run r change st).2 :=
  t.handled (.of_run r idle change st) (.of_agrees apart (Settled.hears (fun _ => .inl shown) _))

end Still

/-! ### What changes leave -/

/-- **What a change leaves is coherent**, whatever became of it. -/
theorem Traced.coherent (h : Traced c change heard moved) (orderly : Orderly heard)
    (coherent : c.session.graph.Coherent c.session.entry) :
    moved.1.session.graph.Coherent moved.1.session.entry := by
  cases h with
  | refused => exact coherent
  | skipped => exact coherent
  | probing _ _ session =>
    rw [session]
    exact coherent
  | building _ _ session _ known =>
    rw [session]
    exact known.coherent orderly coherent
  | failed _ _ session _ ends =>
    obtain ⟨active, same⟩ := ends.session
    rw [same, session]
    exact coherent
  | ended _ _ session known _ ends =>
    obtain ⟨active, same⟩ := ends.session
    rw [same, session]
    exact known.coherent (orderly.of_subset fun _ mem => List.mem_append_left _ mem) coherent

/-- **A session's graph is always coherent.** -/
theorem Serves.graph_coherent {σ : Type} {r : Resolver σ} {st : σ} (h : Serves r c st) :
    c.session.graph.Coherent c.session.entry := by
  induction h with
  | @registered s s' platform entry sink heard seed id w sound answered orderly h here =>
    rcases s.enrol_cases platform entry sink seed with
      ⟨fault, refusal, nextId, -, he⟩ | ⟨g, source, rfl, -, he⟩
    · rw [he] at h
      cases h
    · rw [he] at h
      cases h
      rw [sound.worker?_admitted_self] at here
      cases here
      exact answered.coherent orderly
  | handled _ h orderly ih => exact h.traced.coherent orderly ih
  | stirred _ h ih =>
    obtain ⟨isAlive, isOpen, limit, -, rfl⟩ := h.frame
    exact ih

end Connection

namespace Sample

/-- The worker of the client, when it has been taken in with a graph. -/
def recruit (g : Graph) : Worker := ({} : Service).newcomer "ios" entry {} g

theorem tree_apart : tree.snapshot.Apart := Tree.snapshot_apart (by decide +kernel)

/-- The client is taken in with a graph that was discovered. -/
theorem client_enrolled :
    ∃ g source, (Search.discover Tree.resolver "ios" entry tree).1 = .ok g ∧
      ({} : Service).enrol "ios" entry {} (.ok g) =
        (.ok 1, ({} : Service).admitted source (recruit g)) ∧
      (recruit g).connection = client := by
  have ok : (Search.discover Tree.resolver "ios" entry tree).1.isOk = true := by decide +kernel
  obtain ⟨g, found⟩ : ∃ g, (Search.discover Tree.resolver "ios" entry tree).1 = .ok g := by
    revert ok
    cases (Search.discover Tree.resolver "ios" entry tree).1 with
    | error e => exact fun ok => by cases ok
    | ok g => exact fun _ => ⟨g, rfl⟩
  obtain ⟨source, -, enrolled⟩ := Service.enrol_of_welcome (s := {}) rfl "ios" entry {} g
  refine ⟨g, source, found, enrolled, ?_⟩
  rw [client, found]
  rfl

/-- The client is taken in and the edit brings it a third module: its graph is coherent, with all
three. -/
theorem delivered_coherent :
    Connection.Serves Tree.resolver delivered.1.1 delivered.2 ∧
      delivered.1.1.session.graph.modules.map (·.path.text) = ["/main", "/part", "/new"] ∧
      delivered.1.1.session.graph.Coherent delivered.1.1.session.entry := by
  have registered : Connection.Serves Tree.resolver client grown := by
    have sound : ({} : Service).Sound := .new {}
    obtain ⟨g, source, found, enrolled, same⟩ := client_enrolled
    rw [← same]
    exact .of_discovery sound tree.showsFrom tree_apart found enrolled
      (sound.worker?_admitted_self _ _) grown
  have apart : grown.snapshot.Apart := Tree.snapshot_apart (by decide +kernel)
  have serves : Connection.Serves Tree.resolver delivered.1.1 delivered.2 :=
    registered.run rfl grown.showsFrom apart edit
  exact ⟨serves, by decide +kernel, serves.graph_coherent⟩

end Sample

end HotReload
