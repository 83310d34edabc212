import HotReload.Proofs.Session.Ending
import HotReload.Proofs.Session.Reaction
import HotReload.Resolver.Tree

/-!
# Cycles

A cycle waits for the resolver between its steps.  While it waits the files can change, the client
can leave and its sink can stop taking messages: `Stirs` is one such event.  `Handling` follows one
change from the moment it is taken up, with all that the resolver answers on the way; `Run` follows
a connection through any number of changes.  The resolver is any resolver, and its state can change
in any way while a cycle waits, so that its answers are arbitrary.

* `Handling.handled`: a change that has been dealt with was given up or skipped at once, or its cycle
  ended with a result that its reaction and the answers explain.
* `Handling.of_run`: `Connection.run` is a handling in which nothing happens meanwhile.
-/

namespace HotReload

/-! ### Answers -/

/-- What a resolver answered to one question. -/
inductive Answer where
  | module (path : Path) (answer : Except ResolveFault Module)
  | dependencies (lookup : Lookup) (answer : Except ResolveFault (List Path))
  | build (job : BuildJob) (answer : Except ResolveFault (List BuiltModule))

/-- Whether the resolver had an answer. -/
def Answer.isOk : Answer → Bool
  | .module _ answer => answer.isOk
  | .dependencies _ answer => answer.isOk
  | .build _ answer => answer.isOk

/-- Whether the answer is to the order of a build. -/
def Answer.isBuild : Answer → Bool
  | .build .. => true
  | _ => false

/-- Whether the answer, where it is a build, has an entry for each module in the order. -/
def Answer.isWhole : Answer → Bool
  | .build job (.ok built) => built.map (·.id) == job.modules.map (·.id)
  | _ => true

/-- The answer of a resolver to a question. -/
def Query.reply {σ α : Type} (r : Resolver σ) (st : σ) : Query α → Answer
  | .module path _ => .module path (r.module path st).1
  | .dependencies lookup _ => .dependencies lookup (r.dependencies lookup st).1

theorem Query.reply_isBuild {σ α : Type} (r : Resolver σ) (st : σ) (q : Query α) :
    (q.reply r st).isBuild = false := by
  cases q <;> rfl

namespace Connection

/-! ### What happens while a cycle waits -/

/-- What can happen around a connection while it waits. -/
inductive Stirs {σ : Type} : Connection → σ → Connection → σ → Prop where
  /-- The files change. -/
  | edited (c : Connection) (st st' : σ) : Stirs c st c st'
  /-- The client is taken out of the service. -/
  | parted (c : Connection) (st : σ) : Stirs c st { c with isAlive := false } st
  /-- The sink stops taking messages. -/
  | closed (c : Connection) (st : σ) : Stirs c st { c with sink := c.sink.close } st
  /-- The sink will stop taking messages by itself. -/
  | limited (c : Connection) (st : σ) (n : Nat) :
      Stirs c st { c with sink := c.sink.closeAfter n } st

/-- Nothing that happens around a connection is its own doing. -/
theorem Stirs.frame {σ : Type} {c c' : Connection} {st st' : σ} (h : Stirs c st c' st') :
    ∃ isAlive isOpen limit, (c.isAlive = false → isAlive = false) ∧
      c' = { c with isAlive, sink := { c.sink with isOpen, limit } } := by
  cases h with
  | edited => exact ⟨c.isAlive, c.sink.isOpen, c.sink.limit, id, rfl⟩
  | parted => exact ⟨false, c.sink.isOpen, c.sink.limit, fun _ => rfl, rfl⟩
  | closed => exact ⟨c.isAlive, false, c.sink.limit, id, rfl⟩
  | limited n => exact ⟨c.isAlive, c.sink.isOpen, some (c.sink.accepted.length + n), id, rfl⟩

/-- What the resolver answers in the next step of a cycle. -/
def answers {σ : Type} (r : Resolver σ) (c : Connection) (st : σ) : List Answer :=
  match c.cycle with
  | none | some (.ordering _) => []
  | some (.probing change probe) => [(probe.next c.session change).reply r st]
  | some (.building job) => ((r.deliver job st).1.map (.build job)).toList

/-- How far a connection has come with a change, and what the resolver has answered since. -/
inductive Handling {σ : Type} (r : Resolver σ) (c : Connection) (change : Change) (st : σ) :
    List Answer → Moved → σ → Prop where
  | start (h : c.cycle = none) : Handling r c change st [] (c.handle change) st
  | step {c₁ : Connection} {moved : Moved} {st₁ st₂ : σ} {heard : List Answer}
      (t : Handling r c change st heard (c₁, none) st₁) (h : c₁.step? r st₁ = some (moved, st₂)) :
      Handling r c change st (heard ++ c₁.answers r st₁) moved st₂
  | stir {c₁ c₂ : Connection} {st₁ st₂ : σ} {heard : List Answer}
      (t : Handling r c change st heard (c₁, none) st₁) (h : Stirs c₁ st₁ c₂ st₂) :
      Handling r c change st heard (c₂, none) st₂

/-- The states of a connection that takes up changes, one after the other. -/
inductive Run {σ : Type} (r : Resolver σ) (c₀ : Connection) (st₀ : σ) :
    Connection → σ → Prop where
  | start : Run r c₀ st₀ c₀ st₀
  | take {c : Connection} {st : σ} (t : Run r c₀ st₀ c st) (h : c.cycle = none)
      (change : Change) : Run r c₀ st₀ (c.handle change).1 st
  | step {c : Connection} {moved : Moved} {st st' : σ} (t : Run r c₀ st₀ c st)
      (h : c.step? r st = some (moved, st')) : Run r c₀ st₀ moved.1 st'
  | stir {c c' : Connection} {st st' : σ} (t : Run r c₀ st₀ c st) (h : Stirs c st c' st') :
      Run r c₀ st₀ c' st'

/-- What the resolver answers while a cycle goes on by itself. -/
def hears {σ : Type} (r : Resolver σ) : Nat → Moved → σ → List Answer
  | 0, _, _ => []
  | _ + 1, (_, some _), _ => []
  | fuel + 1, (c, none), st =>
    match c.step? r st with
    | none => []
    | some (moved, st') => c.answers r st ++ hears r fuel moved st'

/-- What the resolver answers in `Connection.run`. -/
def runHears {σ : Type} (r : Resolver σ) (c : Connection) (change : Change) (st : σ) :
    List Answer :=
  hears r (r.bound st + 4) (c.handle change) st

/-- A handling without events around it. -/
theorem Handling.of_settle {σ : Type} {r : Resolver σ} {c : Connection} {change : Change} {st : σ}
    (fuel : Nat) {heard : List Answer} {moved : Moved} {st₁ : σ}
    (h : Handling r c change st heard moved st₁) :
    Handling r c change st (heard ++ hears r fuel moved st₁) (settle r fuel moved st₁).1
      (settle r fuel moved st₁).2 := by
  induction fuel generalizing heard moved st₁ with
  | zero => simpa only [hears, settle, List.append_nil] using h
  | succ fuel ih =>
    obtain ⟨c₁, _ | outcome⟩ := moved
    · cases hs : c₁.step? r st₁ with
      | none => simpa only [hears, settle, hs, List.append_nil] using h
      | some next =>
        obtain ⟨moved, st₂⟩ := next
        simpa only [hears, settle, hs, List.append_assoc] using ih (h.step hs)
    · simpa only [hears, settle, List.append_nil] using h

/-- **`Connection.run` is a handling.** -/
theorem Handling.of_run {σ : Type} (r : Resolver σ) {c : Connection} (idle : c.cycle = none)
    (change : Change) (st : σ) :
    Handling r c change st (c.runHears r change st) (c.run r change st).1 (c.run r change st).2 :=
  Handling.of_settle _ (.start idle)

theorem Handling.of_run_outcome {σ : Type} {r : Resolver σ} {c : Connection}
    (idle : c.cycle = none) {change : Change} {st : σ} {o : Outcome}
    (h : (c.run r change st).1.2 = some o) :
    Handling r c change st (c.runHears r change st) ((c.run r change st).1.1, some o)
      (c.run r change st).2 := by
  have handling := Handling.of_run r idle change st
  rwa [show (c.run r change st).1 = ((c.run r change st).1.1, some o) from Prod.ext rfl h]
    at handling

/-- What is handled is part of a run. -/
theorem Run.handling {σ : Type} {r : Resolver σ} {c₀ c : Connection} {change : Change}
    {st₀ st st' : σ} {heard : List Answer} {moved : Moved} (run : Run r c₀ st₀ c st)
    (h : Handling r c change st heard moved st') : Run r c₀ st₀ moved.1 st' := by
  induction h with
  | start idle => exact run.take idle change
  | step _ hs ih => exact ih.step hs
  | stir _ hs ih => exact ih.stir hs

/-! ### What has been done with a change -/

/-- A change opens a cycle: the connection is open and the change is one of its program. -/
structure Opens (c : Connection) (change : Change) : Prop where
  phase : c.phase ≠ .closed
  present : c.isGone = false
  active : c.session.active = true
  relevant : c.session.isRelevant change = true

/-- `c₁` is `c` in a cycle of which `update-start` is sent. -/
structure Began (c c₁ : Connection) : Prop where
  phase : c₁.phase = .awaiting
  sent : c₁.sink.accepted = c.sink.accepted ++ [.updateStart]
  endpoint : c₁.endpoint = c.endpoint

/-- What a cycle waits for, and the session meanwhile: it has its old graph until the reaction is
found, and the graph that the reaction brought from then on. -/
inductive Stage (c : Connection) (change : Change) : Option Cycle → Session → Prop where
  | probing {probe : Probe} (h : (Progress.probing probe).Sound c.session change) :
      Stage c change (some (.probing change probe)) c.session
  | ordering {g : Graph} {modules : List Module} {job : BuildJob}
      (h : c.session.Reacts change g (.rebuild modules))
      (hjob : { c.session with graph := g }.jobFor? c.endpoint modules = some job) :
      Stage c change (some (.ordering job)) { c.session with graph := g }
  | building {g : Graph} {modules : List Module} {job : BuildJob}
      (h : c.session.Reacts change g (.rebuild modules))
      (hjob : { c.session with graph := g }.jobFor? c.endpoint modules = some job) :
      Stage c change (some (.building job)) { c.session with graph := g }

/-- The result of a cycle, with the graph that its session is left with: what the reaction and the
answers come to. -/
inductive Comes (c : Connection) (change : Change) :
    List Answer → Graph → Except UpdateFault (Option Payload) → Prop where
  /-- The reaction is not found. -/
  | fault {heard : List Answer} {m : Module} (u : ∀ a ∈ heard, a.isBuild = false)
      (h : c.session.graph.moduleAt? change.path = some m) (e : UpdateFault) :
      Comes c change heard c.session.graph (.error e)
  | irrelevant {heard : List Answer} {g : Graph} (u : ∀ a ∈ heard, a.isBuild = false)
      (h : c.session.Reacts change g .irrelevant) : Comes c change heard g (.ok none)
  | deleted {heard : List Answer} {g : Graph} {m : Module} (u : ∀ a ∈ heard, a.isBuild = false)
      (h : c.session.Reacts change g (.deleted m)) :
      Comes c change heard g (.ok (some (Payload.deletion m.id g.inverse)))
  /-- None of the modules to be rebuilt belongs to the program. -/
  | nothing {heard : List Answer} {g : Graph} {modules : List Module}
      (u : ∀ a ∈ heard, a.isBuild = false) (h : c.session.Reacts change g (.rebuild modules))
      (hjob : { c.session with graph := g }.jobFor? c.endpoint modules = none) :
      Comes c change heard g (.ok none)
  | built {heard : List Answer} {g : Graph} {modules : List Module} {job : BuildJob}
      (u : ∀ a ∈ heard, a.isBuild = false) (h : c.session.Reacts change g (.rebuild modules))
      (hjob : { c.session with graph := g }.jobFor? c.endpoint modules = some job)
      (built : List BuiltModule) :
      Comes c change (heard ++ [.build job (.ok built)]) g
        (.ok ({ c.session with graph := g }.updateFor built))
  | unbuilt {heard : List Answer} {g : Graph} {modules : List Module} {job : BuildJob}
      (u : ∀ a ∈ heard, a.isBuild = false) (h : c.session.Reacts change g (.rebuild modules))
      (hjob : { c.session with graph := g }.jobFor? c.endpoint modules = some job)
      (e : ResolveFault) :
      Comes c change (heard ++ [.build job (.error e)]) g (.error (.ofResolve e))

/-- How far a change has been dealt with. -/
inductive Handled (c : Connection) (change : Change) (heard : List Answer) : Moved → Prop where
  | waiting {c₁ : Connection} (o : Opens c change) (b : Began c c₁)
      (u : ∀ a ∈ heard, a.isBuild = false) (s : Stage c change c₁.cycle c₁.session) :
      Handled c change heard (c₁, none)
  | refused : Handled c change heard c.discard
  | skipped (h : c.session.isRelevant change = false) (phase : c.phase ≠ .closed)
      (active : c.session.active = true) : Handled c change heard (c, some .skipped)
  | ended {c₁ : Connection} {g : Graph} {result : Except UpdateFault (Option Payload)}
      {moved : Moved} (o : Opens c change) (b : Began c c₁)
      (session : c₁.session = { c.session with graph := g })
      (comes : Comes c change heard g result) (ends : Ends c₁ result moved) :
      Handled c change heard moved

theorem Handled.conclude {c c₁ : Connection} {change : Change} {heard : List Answer} {g : Graph}
    {result : Except UpdateFault (Option Payload)} (o : Opens c change) (b : Began c c₁)
    (session : c₁.session = { c.session with graph := g })
    (comes : Comes c change heard g result) : Handled c change heard (c₁.conclude result) :=
  .ended o b session comes (conclude_ends c₁ result)

/-- A cycle goes on with a reaction. -/
theorem handled_act {c c₁ : Connection} {change : Change} {heard : List Answer} {g : Graph}
    {reaction : Reaction} (o : Opens c change) (b : Began c c₁)
    (session : c₁.session = { c.session with graph := g })
    (u : ∀ a ∈ heard, a.isBuild = false) (h : c.session.Reacts change g reaction) :
    Handled c change heard (c₁.act reaction) := by
  cases reaction with
  | irrelevant => exact .conclude o b session (.irrelevant u h)
  | deleted m =>
    have hg : c₁.session.graph = g := by rw [session]
    simp only [act, hg]
    exact .conclude o b session (.deleted u h)
  | rebuild modules =>
    simp only [act, b.endpoint, session]
    split
    · next hjob => exact .conclude o b session (.nothing u h hjob)
    · next job hjob => exact .waiting o ⟨b.phase, b.sent, rfl⟩ u (.ordering h hjob)

/-- A cycle goes on with what is known of the reaction. -/
theorem handled_advance {c c₁ : Connection} {change : Change} {heard : List Answer}
    {progress : Progress} (o : Opens c change) (b : Began c c₁) (session : c₁.session = c.session)
    (u : ∀ a ∈ heard, a.isBuild = false) (h : progress.Sound c.session change) :
    Handled c change heard (c₁.advance change progress) := by
  cases progress with
  | probing probe =>
    refine .waiting o ⟨b.phase, b.sent, b.endpoint⟩ u ?_
    rw [session]
    exact .probing h
  | settled verdict =>
    match verdict with
    | .error e =>
      obtain ⟨m, hm⟩ := h
      exact .conclude o b session (.fault u hm e)
    | .ok (g, reaction) =>
      have b' : Began c { c₁ with session := { c₁.session with graph := g } } :=
        ⟨b.phase, b.sent, b.endpoint⟩
      exact handled_act o b' (by rw [session]) u h

/-- A change is taken up. -/
theorem handled_handle (c : Connection) (change : Change) : Handled c change [] (c.handle change) := by
  unfold handle
  split
  · exact .refused
  · next open_ =>
    simp only [not_or, Bool.not_eq_true, Bool.not_eq_false'] at open_
    obtain ⟨phase, present, active⟩ := open_
    cases relevant : c.session.isRelevant change with
    | false => exact .skipped relevant phase active
    | true =>
      rcases send_cases { c with phase := .awaiting } .updateStart
        (fun c => c.advance change (Progress.start c.session change)) with h | ⟨sink, hs, h⟩
      · exact h ▸ .refused
      · refine h ▸ ?_
        have o : Opens c change := ⟨phase, present, active, relevant⟩
        have b : Began c { c with phase := .awaiting, sink } :=
          ⟨rfl, Sink.accepted_of_accept? hs, rfl⟩
        exact handled_advance o b rfl (fun _ h => absurd h List.not_mem_nil)
          (Progress.start_sound relevant)

/-- One step of a cycle. -/
theorem Handled.step {σ : Type} {r : Resolver σ} {c c₁ : Connection} {change : Change}
    {heard : List Answer} {moved : Moved} {st st' : σ} (h : Handled c change heard (c₁, none))
    (hs : c₁.step? r st = some (moved, st')) :
    Handled c change (heard ++ c₁.answers r st) moved := by
  cases h with
  | ended _ _ _ _ ends => cases ends
  | waiting o b u s =>
    generalize hc : c₁.cycle = cycle at s
    generalize hg : c₁.session = session at s
    cases s with
    | @probing probe h =>
      have hp : ((probe.next c₁.session change).reply r st).isBuild = false :=
        Query.reply_isBuild ..
      simp only [step?, hc, Option.some.injEq, Prod.mk.injEq] at hs
      obtain ⟨rfl, -⟩ := hs
      simp only [answers, hc]
      refine handled_advance o b hg (fun a ha => ?_) (by rw [hg]; exact Probe.next_sound r st h)
      rcases List.mem_append.mp ha with ha | ha
      · exact u a ha
      · rw [List.mem_singleton.mp ha]; exact hp
    | @ordering g modules job h hjob =>
      simp only [step?, hc, Option.some.injEq, Prod.mk.injEq] at hs
      obtain ⟨rfl, -⟩ := hs
      simp only [answers, hc, List.append_nil]
      refine .waiting o ⟨b.phase, b.sent, b.endpoint⟩ u ?_
      simp only [hg]
      exact .building h hjob
    | @building g modules job h hjob =>
      -- only here is a build heard, and it is the last answer of the cycle
      simp only [step?, hc] at hs
      simp only [answers, hc]
      cases hd : r.deliver job st with
      | mk answer st₁ =>
        rw [hd] at hs
        match answer with
        | none => cases hs
        | some (.error e) =>
          simp only [receive, Option.some.injEq, Prod.mk.injEq] at hs
          obtain ⟨rfl, -⟩ := hs
          exact .conclude o b hg (.unbuilt u h hjob e)
        | some (.ok built) =>
          simp only [receive, Option.some.injEq, Prod.mk.injEq] at hs
          obtain ⟨rfl, -⟩ := hs
          refine .conclude o b hg ?_
          rw [hg]
          exact .built u h hjob built

/-- Nothing that happens while a cycle waits changes what has been done. -/
theorem Handled.stir {σ : Type} {c c₁ c₂ : Connection} {change : Change} {heard : List Answer}
    {st st' : σ} (h : Handled c change heard (c₁, none)) (hs : Stirs c₁ st c₂ st') :
    Handled c change heard (c₂, none) := by
  cases h with
  | ended _ _ _ _ ends => cases ends
  | waiting o b u s =>
    obtain ⟨isAlive, isOpen, limit, -, rfl⟩ := hs.frame
    exact .waiting o ⟨b.phase, b.sent, b.endpoint⟩ u s

/-- **What a handling comes to.** -/
theorem Handling.handled {σ : Type} {r : Resolver σ} {c : Connection} {change : Change}
    {heard : List Answer} {moved : Moved} {st st' : σ}
    (h : Handling r c change st heard moved st') : Handled c change heard moved := by
  induction h with
  | start => exact handled_handle c change
  | step _ hs ih => exact ih.step hs
  | stir _ hs ih => exact ih.stir hs

/-- A waiting cycle is a cycle. -/
theorem Stage.isSome {c : Connection} {change : Change} {cycle : Option Cycle} {session : Session}
    (h : Stage c change cycle session) : cycle.isSome = true := by
  cases h <;> rfl

theorem Stage.active {c : Connection} {change : Change} {cycle : Option Cycle} {session : Session}
    (h : Stage c change cycle session) : session.active = c.session.active := by
  cases h <;> rfl

end Connection

/-! ### A small program -/

namespace Sample

/-- An answer that is known to be there, with the value that is computed for it. -/
theorem eq_ok_getD {ε α : Type} {answer : Except ε α} (there : answer.toOption.isSome = true)
    (other : α) : answer = .ok (answer.toOption.getD other) := by
  cases answer with
  | error fault => cases there
  | ok value => rfl

def entry : Path := ⟨"/main"⟩

def part : Path := ⟨"/part"⟩

def newcomer : Path := ⟨"/new"⟩

/-- A program of two files: the entry file imports the other one. -/
def tree : Tree := (({} : Tree).add entry .source [part] "").add part .source [] ""

/-- A client of the program. -/
def client : Connection :=
  { session :=
      { connection := 1
        platform := "ios"
        entry
        graph := (Search.discover Tree.resolver "ios" entry tree).1.toOption.getD {} }
    endpoint := {} }

/-- The second file is edited. -/
def edit : Change := ⟨.modified, part⟩

/-- The second file imports a new file. -/
def grown : Tree := (tree.add newcomer .source [] "").setDependencies part [newcomer]

/-- Both files are edited: the entry file imports the new file in place of the second one, and so
does the second one. -/
def swapped : Tree :=
  ((tree.add newcomer .source [] "").setDependencies entry [newcomer]).setDependencies part
    [newcomer]

/-- The client takes the edit up. -/
def delivered : Connection.Moved × Tree := client.run Tree.resolver edit grown

end Sample

end HotReload
