import HotReload.Proofs.Graph.Coherent
import HotReload.Proofs.Session.Trace
import HotReload.Session.Worker

/-!
# Losing the entry file

A session is over when its entry file is lost, and with nothing else.  The entry file is lost where
it is deleted, and where it is missed by the discovery that another change set off.  The same fault
means nothing of this kind where another question is answered with it, or another path is missing.

* `Session.Loses`: a change with which a session loses its entry file, by what is heard.
* `Connection.Traced.lost_or_kept`: a change that loses the entry file ends the session and the
  client is told so; every other change leaves it active.
* `Connection.Idle`: a connection between two changes, whose session is active and has its entry
  file in its graph.
-/

namespace HotReload

/-! ### Entry files -/

/-- What was found at a path has this path. -/
def Placed (heard : List Answer) : Prop :=
  ∀ p m, Answer.module p (.ok m) ∈ heard → (m.path == p) = true

theorem Placed.of_subset {heard part : List Answer} (h : Placed heard) (sub : part ⊆ heard) :
    Placed part :=
  fun p m mem => h p m (sub mem)

theorem Placed.append {heard more : List Answer} (h : Placed heard) (h' : Placed more) :
    Placed (heard ++ more) :=
  fun p m mem => (List.mem_append.mp mem).elim (h p m) (h' p m)

/-- At a path a resolver finds the module with this path. -/
def Resolver.Places {σ : Type} (r : Resolver σ) : Prop :=
  ∀ p st m, (r.module p st).1 = .ok m → (m.path == p) = true

theorem Tree.resolver_places : Tree.resolver.Places := by
  intro p t m found
  simp only [Tree.resolver, Tree.askModule] at found
  split at found
  · cases found
  · unfold Tree.moduleOf at found
    split at found
    · cases found
      exact BEq.rfl
    · cases found

/-- The entry file belongs to the session's program. -/
structure Session.Rooted (s : Session) : Prop where
  module : s.graph.containsPath s.entry = true
  listed : (s.graph.dependencies? s.entry).isSome = true

/-- **A graph that is discovered** has its entry file. -/
theorem Search.Answered.rooted {s : Session} {heard : List Answer} {g : Graph}
    (h : (Search.start s.platform s.entry).Answered heard (.ok g)) (placed : Placed heard) :
    ({ s with graph := g } : Session).Rooted := by
  have paired := h.gathers.paired (Search.tidy_start s.platform s.entry) .nil
  have entry : s.entry ∈ g.keys := h.gathers.layers.first_layer.subset List.mem_cons_self
  obtain ⟨e, mem, entry⟩ := List.mem_map.mp entry
  obtain ⟨m, here, told⟩ := paired.exists_module mem
  refine ⟨List.any_eq_true.mpr ⟨m, here, ?_⟩, ?_⟩
  · rw [← entry]
    exact placed e.1 m told.module
  · rw [Graph.dependencies?, Assoc.get?_isSome]
    exact List.any_eq_true.mpr ⟨e, mem, by rw [entry]; exact BEq.rfl⟩

/-! ### Losses -/

/-- With a change, and with what is heard of it, the session loses its entry file. -/
inductive Session.Loses (s : Session) (change : Change) : List Answer → Prop where
  /-- The entry file is deleted. -/
  | deleted (gone : change.isDeletion = true) (entry : (change.path == s.entry) = true) :
      Loses s change []
  /-- A source file of the program has other dependencies than before, and the graph cannot be
  discovered anew as the entry file is missing. -/
  | missing {m : Module} {cached current : List Path} {heard : List Answer} {p : Path}
      (modified : change.isDeletion = false)
      (module : s.graph.moduleAt? change.path = some m) (kind : m.kind = .source)
      (listed : s.graph.dependencies? change.path = some cached)
      (differs : (current == cached) = false)
      (answered : (Search.start s.platform s.entry).Answered heard (.error (.missing p)))
      (entry : (p == s.entry) = true) :
      Loses s change (.dependencies (s.lookup change) (.ok current) :: heard)

namespace Progress

variable {s : Session} {change : Change} {heard : List Answer}

/-- The first look finds a fault where the entry file is deleted. -/
theorem start_eq_error {e : UpdateFault} (h : start s change = .settled (.error e)) :
    change.isDeletion = true ∧ (change.path == s.entry) = true ∧ e = .entryLost s.entry := by
  unfold start at h
  repeat' split at h
  all_goals simp_all

/-- The first look asks for dependencies where a source file of the program was written. -/
theorem start_eq_dependencies {m : Module} (h : start s change = .probing (.dependencies m)) :
    change.isDeletion = false ∧ s.graph.moduleAt? change.path = some m ∧ m.kind = .source ∧
      ∃ cached, s.graph.dependencies? change.path = some cached := by
  have relevant : s.isRelevant change = true := by
    cases relevant : s.isRelevant change with
    | true => rfl
    | false => simp [start, relevant] at h
  unfold start at h
  repeat' split at h
  all_goals simp_all [Session.isRelevant, Option.isSome_iff_exists]

/-- The entry file is deleted. -/
theorem start_of_deleted (rooted : s.Rooted) (gone : change.isDeletion = true)
    (entry : (change.path == s.entry) = true) :
    start s change = .settled (.error (.entryLost s.entry)) := by
  have relevant : s.isRelevant change = true := by
    rw [Session.isRelevant, Graph.dependencies?, Assoc.get?_congr entry]
    exact rooted.listed
  have there : s.graph.containsPath change.path = true := by
    obtain ⟨m, mem, here⟩ := List.any_eq_true.mp rooted.module
    exact List.any_eq_true.mpr ⟨m, mem, BEq.trans here (BEq.symm entry)⟩
  rw [← Graph.isSome_moduleAt?, Option.isSome_iff_exists] at there
  obtain ⟨m, module⟩ := there
  simp [start, relevant, module, gone, entry]

end Progress

variable {s : Session} {change : Change} {heard : List Answer}

/-- How far the reaction to a change had come with which the entry file is lost. -/
theorem Session.Loses.cases (h : s.Loses change heard) (rooted : s.Rooted) :
    (heard = [] ∧ Progress.start s change = .settled (.error (.entryLost s.entry))) ∨
    ∃ current rest p, heard = .dependencies (s.lookup change) (.ok current) :: rest ∧
      s.Diverges change current ∧
      (Search.start s.platform s.entry).Answered rest (.error (.missing p)) ∧
      (p == s.entry) = true := by
  cases h with
  | deleted gone entry => exact .inl ⟨rfl, Progress.start_of_deleted rooted gone entry⟩
  | @missing m _ _ _ _ modified module kind listed differs answered entry =>
    refine .inr ⟨_, _, _, rfl, ⟨⟨m, ?_⟩, ?_⟩, answered, entry⟩
    · simp [Progress.start, Session.isRelevant, listed, module, modified, kind]
    · rw [listed]
      exact differs

namespace Progress

theorem searchFault_isEntryLost {e : ResolveFault} (lost : (searchFault s e).isEntryLost = true) :
    ∃ p, e = .missing p ∧ (p == s.entry) = true ∧ searchFault s e = .entryLost p := by
  cases e with
  | missing p =>
    cases entry : p == s.entry with
    | true => exact ⟨p, rfl, entry, by simp [searchFault, entry]⟩
    | false => simp [searchFault, entry, UpdateFault.isEntryLost] at lost
  | unresolved | transform | other => cases lost

/-- A fault that ends a session names its entry file. -/
theorem Known.entryLost {e : UpdateFault} (h : Known s change heard (.settled (.error e)))
    (lost : e.isEntryLost = true) : ∃ p, e = .entryLost p ∧ (p == s.entry) = true := by
  generalize now : Progress.settled (.error e) = progress at h
  cases h with
  | first =>
    obtain ⟨-, -, rfl⟩ := start_eq_error now.symm
    exact ⟨s.entry, rfl, BEq.rfl⟩
  | @unlisted _ _ fault =>
    cases now
    cases fault <;> cases lost
  | missed =>
    cases now
    obtain ⟨p, -, entry, same⟩ := searchFault_isEntryLost lost
    exact ⟨p, same, entry⟩
  | same | searching | found => cases now

/-- **When a reaction is not found as the entry file is lost.** -/
theorem Known.loses_iff {e : UpdateFault} (h : Known s change heard (.settled (.error e)))
    (rooted : s.Rooted) : e.isEntryLost = true ↔ s.Loses change heard := by
  generalize now : Progress.settled (.error e) = progress at h
  constructor
  · intro lost
    cases h with
    | first =>
      obtain ⟨gone, entry, -⟩ := start_eq_error now.symm
      exact .deleted gone entry
    | @unlisted _ _ fault =>
      cases now
      cases fault <;> cases lost
    | missed diverges answered =>
      cases now
      obtain ⟨p, rfl, entry, -⟩ := searchFault_isEntryLost lost
      obtain ⟨⟨m, asked⟩, differs⟩ := diverges
      obtain ⟨modified, module, kind, cached, listed⟩ := start_eq_dependencies asked
      rw [listed, Option.getD_some] at differs
      exact .missing modified module kind listed differs answered entry
    | same | searching | found => cases now
  · intro loses
    rcases loses.cases rooted with ⟨rfl, start⟩ | ⟨current, rest, p, rfl, diverges, answered, entry⟩
    · cases h with
      | first =>
        rw [start] at now
        cases now
        rfl
    · cases h with
      | missed _ answered' =>
        cases now
        -- one list of answers has one end
        cases (answered'.unique answered (List.append_nil rest)).2
        simp [searchFault, entry, UpdateFault.isEntryLost]
      | same | searching | found => cases now

/-- The graph that a reaction brings has the entry file. -/
theorem Known.rooted {g : Graph} {reaction : Reaction}
    (known : Known s change heard (.settled (.ok (g, reaction)))) (rooted : s.Rooted)
    (placed : Placed heard) : ({ s with graph := g } : Session).Rooted := by
  rcases known.graph with rfl | ⟨answer, rest, rfl, answered⟩
  · exact rooted
  · exact answered.rooted (placed.of_subset fun _ mem => List.mem_cons_of_mem _ mem)

/-- Where a reaction is found, the entry file is not lost. -/
theorem Known.not_loses {g : Graph} {reaction : Reaction} {more : List Answer}
    (h : Known s change heard (.settled (.ok (g, reaction)))) (rooted : s.Rooted) :
    ¬ s.Loses change (heard ++ more) := by
  intro loses
  generalize now : Progress.settled (.ok (g, reaction)) = progress at h
  rcases loses.cases rooted with ⟨none, start⟩ | ⟨current, rest, p, some, diverges, answered, -⟩
  · cases h with
    | first =>
      rw [start] at now
      cases now
    | same | found => cases none
    | unlisted | searching | missed => cases now
  · cases h with
    | first =>
      obtain ⟨⟨m, asked⟩, -⟩ := diverges
      rw [asked] at now
      cases now
    | same _ same =>
      cases some
      rw [diverges.differs] at same
      cases same
    | found _ answered' =>
      obtain ⟨-, others⟩ := List.cons.inj some
      cases (answered'.unique answered others).2
    | unlisted | searching | missed => cases now

end Progress

namespace Connection

/-- What is heard in a cycle is placed. -/
theorem placed_answers {σ : Type} {r : Resolver σ} (places : r.Places) (c : Connection) (st : σ) :
    Placed (c.answers r st) := by
  intro p m mem
  unfold answers at mem
  split at mem
  · cases mem
  · cases mem
  · next change probe _ =>
    generalize probe.next c.session change = q at mem
    cases q with
    | module path next =>
      obtain ⟨rfl, found⟩ := Answer.module.inj (List.mem_singleton.mp mem)
      exact places p st m found.symm
    | dependencies lookup next => cases List.mem_singleton.mp mem
  · obtain ⟨answer, -, made⟩ := Option.map_eq_some_iff.mp (Option.mem_toList.mp mem)
    cases made

theorem Handling.placed {σ : Type} {r : Resolver σ} (places : r.Places) {c : Connection}
    {moved : Moved} {st st' : σ} (h : Handling r c change st heard moved st') : Placed heard := by
  induction h with
  | start => exact fun _ _ mem => absurd mem List.not_mem_nil
  | step _ _ ih => exact ih.append (placed_answers places _ _)
  | stir _ _ ih => exact ih

/-! ### Steps that tell -/

/-- A step leaves the client where it is, gives a change up only where the client is gone, and ends
a session only where the client is there. -/
structure Moved.Frank (alive : Bool) (moved : Moved) : Prop where
  isAlive : moved.1.isAlive = alive
  gone : moved.2 = some .discarded → moved.1.isGone = true
  present : moved.2 = some .invalidated → alive = true

variable {alive : Bool}

theorem discard_frank {c : Connection} (same : c.isAlive = alive) (gone : c.isGone = true) :
    c.discard.Frank alive :=
  ⟨same, fun _ => gone, nofun⟩

/-- A step that does not end the cycle. -/
theorem frank_of_none {c : Connection} (same : c.isAlive = alive) : Moved.Frank alive (c, none) :=
  ⟨same, nofun, nofun⟩

theorem send_frank {c : Connection} {m : Message} {next : Connection → Moved}
    (same : c.isAlive = alive) (h : ∀ sink, (next { c with sink }).Frank alive) :
    (c.send m next).Frank alive := by
  unfold send
  split
  · next closed =>
    -- a sink that takes no message is closed
    refine discard_frank same ?_
    unfold Sink.accept? at closed
    split at closed
    · cases closed
    · next shut => simp [isGone, shut]
  · next sink _ => exact h sink

theorem complete_frank (c : Connection) (same : c.isAlive = alive) (phase : Phase) {o : Outcome}
    (stays : o ≠ .discarded) (present : o = .invalidated → alive = true) :
    (c.complete phase o).Frank alive :=
  send_frank same fun _ =>
    ⟨same, fun h => absurd (Option.some.inj h) stays, fun h => present (Option.some.inj h)⟩

theorem conclude_frank {c : Connection} (same : c.isAlive = alive)
    (result : Except UpdateFault (Option Payload)) : (c.conclude result).Frank alive := by
  have sends (c₁ : Connection) (same : c₁.isAlive = alive) (m : Message) (phase : Phase)
      {o : Outcome} (stays : o ≠ .discarded) (present : o = .invalidated → alive = true) :
      (c₁.send m (·.complete phase o)).Frank alive :=
    send_frank same fun sink => complete_frank { c₁ with sink } same phase stays present
  cases gone : c.isGone with
  | true =>
    rw [conclude_of_isGone gone]
    exact discard_frank same gone
  | false =>
    have present : alive = true := by
      simp only [isGone, Bool.or_eq_false_iff, Bool.not_eq_false'] at gone
      exact same.symm.trans gone.1
    rcases result with fault | _ | payload
    · cases lost : fault.isEntryLost with
      | true =>
        rw [conclude_entryLost gone lost]
        refine sends _ ?_ _ .closed nofun fun _ => present
        exact same
      | false =>
        rw [conclude_fault gone lost]
        exact sends _ same _ .idle nofun nofun
    · rw [conclude_nothing gone]
      exact complete_frank _ same .idle nofun nofun
    · rw [conclude_update gone]
      exact sends _ same _ .idle nofun nofun

theorem act_frank {c : Connection} (same : c.isAlive = alive) (reaction : Reaction) :
    (c.act reaction).Frank alive := by
  cases reaction with
  | irrelevant => exact conclude_frank same (.ok none)
  | deleted m => exact conclude_frank same (.ok (some _))
  | rebuild modules =>
    simp only [act]
    split
    · exact conclude_frank same (.ok none)
    · exact frank_of_none same

theorem advance_frank {c : Connection} (same : c.isAlive = alive) (change : Change)
    (progress : Progress) : (c.advance change progress).Frank alive := by
  match progress with
  | .probing probe => exact frank_of_none same
  | .settled (.error fault) => exact conclude_frank same (.error fault)
  | .settled (.ok (g, reaction)) =>
    exact act_frank (c := { c with session := { c.session with graph := g } }) same reaction

theorem step?_frank {σ : Type} {r : Resolver σ} {c : Connection} {st st' : σ} {moved : Moved}
    (h : c.step? r st = some (moved, st')) : moved.Frank c.isAlive := by
  unfold step? at h
  split at h
  · cases h
  · cases h
    exact advance_frank rfl _ _
  · cases h
    exact frank_of_none rfl
  · split at h
    · cases h
    · next answer _ _ =>
      cases h
      cases answer with
      | error e => exact conclude_frank rfl (.error (.ofResolve e))
      | ok built => exact conclude_frank rfl (.ok (c.session.updateFor built))

/-! ### Between two changes -/

/-- A connection between two changes, whose session is active and has its entry file. -/
structure Idle (c : Connection) : Prop where
  cycle : c.cycle = none
  phase : c.phase = .idle
  active : c.session.active = true
  rooted : c.session.Rooted

theorem Idle.stir {σ : Type} {c c' : Connection} {st st' : σ} (h : Idle c)
    (hs : Stirs c st c' st') : Idle c' := by
  obtain ⟨isAlive, isOpen, limit, -, rfl⟩ := hs.frame
  exact ⟨h.cycle, h.phase, h.active, h.rooted⟩

theorem Idle.handle_frank {c : Connection} (h : Idle c) (change : Change) :
    (c.handle change).Frank c.isAlive := by
  unfold handle
  split
  · next closed =>
    rw [h.phase, h.active] at closed
    exact discard_frank rfl (by simpa using closed)
  · split
    · exact ⟨rfl, nofun, nofun⟩
    · refine send_frank ?_ fun sink => ?_
      · rfl
      · exact advance_frank (by rfl) change _

/-! ### Changes that end a session -/

/-- A session ended with a change: the client was told that its entry file is not found, and nothing
after it. -/
structure Ousted (c : Connection) (moved : Moved) : Prop where
  outcome : moved.2 = some .invalidated
  session : moved.1.session = { c.session with active := false }
  sent : ∃ p, (p == c.session.entry) = true ∧
    moved.1.sink.accepted = c.sink.accepted ++
      [.updateStart, .error ⟨.notFound, (UpdateFault.entryLost p).message, some p.text, none⟩,
        .updateDone]

/-- A change was dealt with, and the connection waits for the next one. -/
structure Stays (moved : Moved) : Prop where
  outcome : moved.2.bind Outcome.exit? = none
  idle : Idle moved.1

variable {c : Connection} {o : Outcome}

theorem outcomeOf_exit? {result : Except UpdateFault (Option Payload)}
    (kept : losesEntry result = false) : (outcomeOf result).exit? = none := by
  rcases result with fault | _ | payload
  · rw [outcomeOf, show fault.isEntryLost = false from kept]
    rfl
  · rfl
  · rfl

/-- The client is told a result that does not end its session. -/
theorem Ends.stays {c₁ : Connection} {result : Except UpdateFault (Option Payload)} {moved : Moved}
    (h : Ends c₁ result moved) (kept : losesEntry result = false)
    (active : c₁.session.active = true) (rooted : c₁.session.Rooted)
    (present : moved.2 ≠ some .discarded) : Stays moved := by
  cases h with
  | sent =>
    refine ⟨outcomeOf_exit? kept, rfl, by simp [kept], by simp [kept, active], ?_⟩
    exact ⟨rooted.module, rooted.listed⟩
  | left => exact absurd rfl present

/-- **With which changes a session ends.**  A change that loses the entry file ends the session, and
the client is told so.  After every other change the connection waits for the next one. -/
theorem Traced.lost_or_kept {moved : Moved} (h : Traced c change heard moved) (idle : Idle c)
    (placed : Placed heard) (done : moved.2 ≠ none) (present : moved.2 ≠ some .discarded) :
    (c.session.Loses change heard ∧ Ousted c moved) ∨
      (¬ c.session.Loses change heard ∧ Stays moved) := by
  cases h with
  | refused => exact absurd rfl present
  | skipped irrelevant =>
    refine .inr ⟨fun loses => ?_, rfl, idle⟩
    rcases loses.cases idle.rooted with ⟨-, start⟩ | ⟨_, _, _, none, -⟩
    · simp [Progress.start, irrelevant] at start
    · cases none
  | probing => exact absurd rfl done
  | building => exact absurd rfl done
  | @failed c₁ e _ _ o b session known ends =>
    have active : c₁.session.active = true := by rw [session, idle.active]
    cases lost : e.isEntryLost with
    | true =>
      refine .inl ⟨(known.loses_iff idle.rooted).mp lost, ?_⟩
      obtain ⟨p, rfl, entry⟩ := known.entryLost lost
      cases ends with
      | sent taken =>
        refine ⟨rfl, ?_, p, entry, ?_⟩
        · simp [session, losesEntry, lost]
        · rw [taken.accepted, b.sent, List.append_assoc]
          rfl
      | left => exact absurd rfl present
    | false =>
      refine .inr ⟨fun loses => ?_, ends.stays lost active (session ▸ idle.rooted) present⟩
      rw [(known.loses_iff idle.rooted).mpr loses] at lost
      cases lost
  | @ended c₁ g reaction result heard builds _ o b session known yields ends =>
    have placed : Placed heard := placed.of_subset fun _ mem => List.mem_append_left _ mem
    have active : c₁.session.active = true := by rw [session, idle.active]
    refine .inr ⟨known.not_loses idle.rooted, ends.stays yields.kept active ?_ present⟩
    rw [session]
    exact known.rooted idle.rooted placed

end Connection

namespace Sample

/-- A lookup that misses the entry file ends the session; one that misses the new file does not. -/
example : (client.run Tree.resolver edit (grown.failAt .module entry (.missing entry))).1.2 =
    some .invalidated := by decide +kernel

example : (client.run Tree.resolver edit (grown.failAt .module newcomer (.missing newcomer))).1.2 =
    some .failed := by decide +kernel

end Sample

end HotReload
