import HotReload.Proofs.Session.Cycle

/-!
# Frames

A client is sent frames: `update-start`, at most one `update` or `error`, and `update-done`.  What
a client gets before it leaves is a cut, the beginning of a frame that is never completed.

Over a whole run the accepted messages are frames, with at most one cut after them
(`Run.framed`).  A cut is there only while a cycle is under way or where the connection is closed,
and a connection that is closed, or whose client has left, sends nothing more.  Each change adds
what its outcome says (`Outcome.Sends`).

* `Handled.sends`: what a change that has been dealt with added.
* `Run.between_or_within`: a connection is between two changes or in the cycle of one.
* `Run.silent`: a closed connection stays silent.
-/

namespace HotReload

/-- A complete frame. -/
inductive IsFrame : List Message → Prop where
  | bare : IsFrame [.updateStart, .updateDone]
  | update (payload : Payload) : IsFrame [.updateStart, .update payload, .updateDone]
  | error (report : Report) : IsFrame [.updateStart, .error report, .updateDone]

/-- The beginning of a frame that is not completed, possibly empty. -/
def IsCut (ms : List Message) : Prop := ∃ frame, IsFrame frame ∧ ms <+: frame ∧ ms ≠ frame

/-- The messages that a change sends, by its outcome. -/
inductive Outcome.Sends : Outcome → List Message → Prop where
  | skipped : Sends .skipped []
  | updated (payload : Payload) :
      Sends (.updated payload.modules.length) [.updateStart, .update payload, .updateDone]
  | unchanged : Sends .unchanged [.updateStart, .updateDone]
  | failed (report : Report) : Sends .failed [.updateStart, .error report, .updateDone]
  | invalidated (report : Report) : Sends .invalidated [.updateStart, .error report, .updateDone]
  | discarded {ms : List Message} (h : IsCut ms) : Sends .discarded ms

theorem isCut_nil : IsCut [] := ⟨_, .bare, List.nil_prefix, by simp⟩

theorem isCut_start : IsCut [.updateStart] := ⟨_, .bare, ⟨[.updateDone], rfl⟩, by simp⟩

namespace Connection

/-- `update-start` and the report of a result are a frame. -/
theorem isFrame_reports (result : Except UpdateFault (Option Payload)) :
    IsFrame (.updateStart :: reports result) := by
  rcases result with fault | _ | payload
  · exact .error _
  · exact .bare
  · exact .update payload

theorem outcomeOf_sends (result : Except UpdateFault (Option Payload)) :
    (outcomeOf result).Sends (.updateStart :: reports result) := by
  rcases result with fault | _ | payload
  · cases lost : fault.isEntryLost with
    | true => simpa only [outcomeOf, lost] using .invalidated _
    | false => simpa only [outcomeOf, lost] using .failed _
  · exact .unchanged
  · exact .updated payload

/-- A beginning of the report, after `update-start`, is a cut. -/
theorem isCut_reports {ms : List Message} {result : Except UpdateFault (Option Payload)}
    (cut : ms <+: reports result) (short : ms ≠ reports result) : IsCut (.updateStart :: ms) := by
  refine ⟨_, isFrame_reports result, ?_, ?_⟩
  · obtain ⟨rest, h⟩ := cut
    exact ⟨rest, by rw [← h]; rfl⟩
  · intro h
    exact short (List.cons.inj h).2

/-! ### One change -/

/-- **What a change that has been dealt with added** is what its outcome says. -/
theorem Handled.sends {c c' : Connection} {change : Change} {heard : List Answer} {o : Outcome}
    (h : Handled c change heard (c', some o)) :
    ∃ ms, c'.sink.accepted = c.sink.accepted ++ ms ∧ o.Sends ms := by
  generalize hm : (c', some o) = moved at h
  cases h with
  | waiting => cases hm
  | refused =>
    obtain ⟨rfl, ho⟩ := Prod.mk.inj hm
    cases ho
    exact ⟨[], (List.append_nil _).symm, .discarded isCut_nil⟩
  | skipped =>
    obtain ⟨rfl, ho⟩ := Prod.mk.inj hm
    cases ho
    exact ⟨[], (List.append_nil _).symm, .skipped⟩
  | @ended c₁ g result _ _ b _ _ ends =>
    cases ends with
    | sent h =>
      obtain ⟨rfl, ho⟩ := Prod.mk.inj hm
      cases ho
      exact ⟨.updateStart :: reports result,
        by rw [h.accepted, b.sent, List.append_assoc]; rfl, outcomeOf_sends result⟩
    | @left sink ms _ h cut short =>
      obtain ⟨rfl, ho⟩ := Prod.mk.inj hm
      cases ho
      exact ⟨.updateStart :: ms, by rw [h.accepted, b.sent, List.append_assoc]; rfl,
        .discarded (isCut_reports cut short)⟩

/-! ### Between two changes -/

/-- The messages are frames with `tail` after them. -/
def FramesThen (ms tail : List Message) : Prop :=
  ∃ frames : List (List Message), (∀ frame ∈ frames, IsFrame frame) ∧ ms = frames.flatten ++ tail

theorem FramesThen.append {ms tail : List Message} (h : FramesThen ms []) (more : List Message)
    (hmore : more = tail) : FramesThen (ms ++ more) tail := by
  obtain ⟨frames, hf, rfl⟩ := h
  exact ⟨frames, hf, by rw [hmore, List.append_nil]⟩

theorem FramesThen.frame {ms frame : List Message} (h : FramesThen ms []) (hframe : IsFrame frame) :
    FramesThen (ms ++ frame) [] := by
  obtain ⟨frames, hf, rfl⟩ := h
  refine ⟨frames ++ [frame], fun f hmem => ?_, by simp⟩
  rcases List.mem_append.mp hmem with hmem | hmem
  · exact hf f hmem
  · rw [List.mem_singleton.mp hmem]; exact hframe

/-- A connection between two changes: idle with whole frames sent, or closed. -/
inductive Between (active : Bool) (c : Connection) : Prop where
  | idle (cycle : c.cycle = none) (phase : c.phase = .idle) (session : c.session.active = active)
      (sent : FramesThen c.sink.accepted [])
  | closed {tail : List Message} (cycle : c.cycle = none) (phase : c.phase = .closed)
      (cut : IsCut tail) (sent : FramesThen c.sink.accepted tail)

theorem Between.cycle {active : Bool} {c : Connection} (h : Between active c) : c.cycle = none := by
  cases h with
  | idle cycle => exact cycle
  | closed cycle => exact cycle

theorem Between.stir {σ : Type} {active : Bool} {c c' : Connection} {st st' : σ}
    (h : Between active c) (hs : Stirs c st c' st') : Between active c' := by
  obtain ⟨isAlive, isOpen, limit, -, rfl⟩ := hs.frame
  cases h with
  | idle cycle phase session sent => exact .idle cycle phase session sent
  | closed cycle phase cut sent => exact .closed cycle phase cut sent

/-- A connection that can open a cycle has sent whole frames. -/
theorem Between.frames {active : Bool} {c : Connection} (h : Between active c)
    (phase : c.phase ≠ .closed) :
    c.session.active = active ∧ FramesThen c.sink.accepted [] := by
  cases h with
  | idle _ _ session sent => exact ⟨session, sent⟩
  | closed _ closed => exact absurd closed phase

theorem Between.discard {active : Bool} {c : Connection} (h : Between active c) :
    Between active c.discard.1 := by
  cases h with
  | idle _ _ _ sent => exact .closed rfl rfl isCut_nil sent
  | closed _ _ cut sent => exact .closed rfl rfl cut sent

/-- **After a change has been dealt with**, the connection is between two changes again. -/
theorem Between.handled {active : Bool} {c c' : Connection} {change : Change}
    {heard : List Answer} {o : Outcome} (hb : Between active c)
    (h : Handled c change heard (c', some o)) : Between active c' := by
  generalize hm : (c', some o) = moved at h
  cases h with
  | waiting => cases hm
  | refused =>
    obtain ⟨rfl, -⟩ := Prod.mk.inj hm
    exact hb.discard
  | skipped =>
    obtain ⟨rfl, -⟩ := Prod.mk.inj hm
    exact hb
  | @ended c₁ g result _ opens b session _ ends =>
    obtain ⟨hactive, sent⟩ := hb.frames opens.phase
    cases ends with
    | @sent sink h =>
      obtain ⟨rfl, -⟩ := Prod.mk.inj hm
      have whole : FramesThen sink.accepted [] := by
        rw [h.accepted, b.sent, List.append_assoc]
        exact sent.frame (isFrame_reports result)
      cases lost : losesEntry result with
      | true => exact .closed rfl rfl isCut_nil whole
      | false => exact .idle rfl rfl (by simp [session, hactive]) whole
    | @left sink ms _ h cut short =>
      obtain ⟨rfl, -⟩ := Prod.mk.inj hm
      refine .closed rfl rfl (isCut_reports cut short) ?_
      rw [h.accepted, b.sent, List.append_assoc]
      exact sent.append _ rfl

/-! ### Whole runs -/

/-- A connection that has not been used. -/
structure IsNew (c : Connection) : Prop where
  phase : c.phase = .idle
  cycle : c.cycle = none
  unsent : c.sink.accepted = []

theorem IsNew.between {c : Connection} (h : IsNew c) : Between c.session.active c :=
  .idle h.cycle h.phase rfl ⟨[], fun _ h => absurd h List.not_mem_nil, h.unsent⟩

/-- A handling that waits is one of a cycle. -/
theorem Handling.isSome {σ : Type} {r : Resolver σ} {c c₁ : Connection} {change : Change}
    {st st₁ : σ} {heard : List Answer} (h : Handling r c change st heard (c₁, none) st₁) :
    c₁.cycle.isSome = true := by
  cases h.handled with
  | waiting _ _ _ s => exact s.isSome
  | ended _ _ _ _ ends => cases ends

/-- **Where a run stands**: between two changes, or within the cycle of one. -/
theorem Run.between_or_within {σ : Type} {r : Resolver σ} {c₀ c : Connection} {st₀ st : σ}
    (new : IsNew c₀) (run : Run r c₀ st₀ c st) :
    Between c₀.session.active c ∨
      ∃ c₁ change st₁ heard, Between c₀.session.active c₁ ∧
        Handling r c₁ change st₁ heard (c, none) st := by
  -- a handling either goes on or leads back to the state between two changes
  have go : ∀ {c₁ : Connection} {change : Change} {st₁ st₂ : σ} {heard : List Answer}
      {moved : Moved}, Between c₀.session.active c₁ → Handling r c₁ change st₁ heard moved st₂ →
      Between c₀.session.active moved.1 ∨
        ∃ c₁ change st₁ heard, Between c₀.session.active c₁ ∧
          Handling r c₁ change st₁ heard (moved.1, none) st₂ := by
    intro c₁ change st₁ st₂ heard moved hb h
    obtain ⟨c₂, _ | outcome⟩ := moved
    · exact .inr ⟨c₁, change, st₁, heard, hb, h⟩
    · exact .inl (hb.handled h.handled)
  induction run with
  | start => exact .inl new.between
  | take _ idle change ih =>
    rcases ih with hb | ⟨c₁, change₁, st₁, heard, hb, h⟩
    · exact go hb (.start idle)
    · have := h.isSome
      rw [idle] at this
      cases this
  | step _ hs ih =>
    rcases ih with hb | ⟨c₁, change, st₁, heard, hb, h⟩
    · rw [step?, hb.cycle] at hs
      cases hs
    · exact go hb (h.step hs)
  | stir _ hs ih =>
    rcases ih with hb | ⟨c₁, change, st₁, heard, hb, h⟩
    · exact .inl (hb.stir hs)
    · exact .inr ⟨c₁, change, st₁, heard, hb, h.stir hs⟩

/-! ### Silence -/

/-- A connection that sends nothing more: it is closed, or its client has left. -/
def Silent (c : Connection) : Prop := (c.phase = .closed ∧ c.cycle = none) ∨ c.isAlive = false

theorem conclude_of_left {c : Connection} (h : c.isAlive = false)
    (result : Except UpdateFault (Option Payload)) : c.conclude result = c.discard :=
  conclude_of_isGone (by simp [isGone, h]) result

theorem act_of_left {c : Connection} (h : c.isAlive = false) (reaction : Reaction) :
    (c.act reaction).1.sink = c.sink ∧ (c.act reaction).1.isAlive = false := by
  cases reaction with
  | irrelevant => simp only [act, conclude_of_left h]; exact ⟨rfl, h⟩
  | deleted m => simp only [act, conclude_of_left h]; exact ⟨rfl, h⟩
  | rebuild modules =>
    simp only [act]
    split
    · rw [conclude_of_left h]; exact ⟨rfl, h⟩
    · exact ⟨rfl, h⟩

theorem advance_of_left {c : Connection} (h : c.isAlive = false) (change : Change)
    (progress : Progress) :
    (c.advance change progress).1.sink = c.sink ∧ (c.advance change progress).1.isAlive = false := by
  match progress with
  | .probing probe => exact ⟨rfl, h⟩
  | .settled (.error fault) => simp only [advance, conclude_of_left h]; exact ⟨rfl, h⟩
  | .settled (.ok (g, reaction)) =>
    exact act_of_left (c := { c with session := { c.session with graph := g } }) h reaction

theorem receive_of_left {c : Connection} (h : c.isAlive = false)
    (answer : Except ResolveFault (List BuiltModule)) :
    (c.receive answer).1.sink = c.sink ∧ (c.receive answer).1.isAlive = false := by
  cases answer <;> simp only [receive, conclude_of_left h] <;> exact ⟨rfl, h⟩

theorem Silent.handle {c : Connection} (h : Silent c) (change : Change) :
    c.handle change = c.discard := by
  unfold Connection.handle
  refine if_pos ?_
  rcases h with ⟨phase, -⟩ | left
  · exact .inl phase
  · exact .inr (.inl (by simp [isGone, left]))

theorem Silent.step {σ : Type} {r : Resolver σ} {c : Connection} {moved : Moved} {st st' : σ}
    (h : Silent c) (hs : c.step? r st = some (moved, st')) :
    moved.1.sink = c.sink ∧ Silent moved.1 := by
  rcases h with ⟨-, cycle⟩ | left
  · rw [step?, cycle] at hs
    cases hs
  · cases hc : c.cycle with
    | none => rw [step?, hc] at hs; cases hs
    | some cycle =>
      cases cycle with
      | probing change probe =>
        simp only [step?, hc, Option.some.injEq, Prod.mk.injEq] at hs
        obtain ⟨rfl, -⟩ := hs
        obtain ⟨hsink, hleft⟩ := advance_of_left left change _
        exact ⟨hsink, .inr hleft⟩
      | ordering job =>
        simp only [step?, hc, Option.some.injEq, Prod.mk.injEq] at hs
        obtain ⟨rfl, -⟩ := hs
        exact ⟨rfl, .inr left⟩
      | building job =>
        simp only [step?, hc] at hs
        split at hs
        · cases hs
        · next answer _ _ =>
          simp only [Option.some.injEq, Prod.mk.injEq] at hs
          obtain ⟨rfl, -⟩ := hs
          obtain ⟨hsink, hleft⟩ := receive_of_left left answer
          exact ⟨hsink, .inr hleft⟩

theorem Silent.stir {σ : Type} {c c' : Connection} {st st' : σ} (h : Silent c)
    (hs : Stirs c st c' st') : c'.sink.accepted = c.sink.accepted ∧ Silent c' := by
  obtain ⟨isAlive, isOpen, limit, hleft, rfl⟩ := hs.frame
  rcases h with closed | left
  · exact ⟨rfl, .inl closed⟩
  · exact ⟨rfl, .inr (hleft left)⟩

/-- **A silent connection stays silent.** -/
theorem Run.silent {σ : Type} {r : Resolver σ} {c₀ c : Connection} {st₀ st : σ} (h : Silent c₀)
    (run : Run r c₀ st₀ c st) : c.sink.accepted = c₀.sink.accepted ∧ Silent c := by
  induction run with
  | start => exact ⟨rfl, h⟩
  | take _ _ change ih =>
    rw [ih.2.handle change]
    exact ⟨ih.1, .inl ⟨rfl, rfl⟩⟩
  | step _ hs ih =>
    obtain ⟨hsink, silent⟩ := ih.2.step hs
    exact ⟨by rw [hsink, ih.1], silent⟩
  | stir _ hs ih =>
    obtain ⟨hsink, silent⟩ := ih.2.stir hs
    exact ⟨hsink.trans ih.1, silent⟩

/-- **The framing of a run.**  The accepted messages of a new connection are, at every point of
every run, whole frames with a cut after them, and the cut is empty unless a cycle is under way or
the connection is closed.  A change that is dealt with from here on adds what its outcome says.
Between two changes the connection is idle or closed; it is closed where its session was lost; and
where it is closed, or its client has left, no run adds anything. -/
theorem Run.framed {σ : Type} {r : Resolver σ} {c₀ c : Connection} {st₀ st : σ} (new : IsNew c₀)
    (run : Run r c₀ st₀ c st) :
    (∃ tail, FramesThen c.sink.accepted tail ∧ IsCut tail ∧
      (tail ≠ [] → c.cycle.isSome = true ∨ c.phase = .closed)) ∧
    (∀ change heard c' outcome st', Handling r c change st heard (c', some outcome) st' →
      ∃ ms, c'.sink.accepted = c.sink.accepted ++ ms ∧ outcome.Sends ms) ∧
    (c.cycle = none → c.phase = .idle ∨ c.phase = .closed) ∧
    (c₀.session.active = true → c.session.active = false → c.phase = .closed) ∧
    (c.phase = .closed ∨ c.isAlive = false →
      ∀ c' st', Run r c st c' st' → c'.sink.accepted = c.sink.accepted) := by
  have adds : ∀ change heard c' outcome st', Handling r c change st heard (c', some outcome) st' →
      ∃ ms, c'.sink.accepted = c.sink.accepted ++ ms ∧ outcome.Sends ms :=
    fun _ _ _ _ _ h => h.handled.sends
  have silent : (c.phase = .closed → c.cycle = none) → c.phase = .closed ∨ c.isAlive = false →
      ∀ c' st', Run r c st c' st' → c'.sink.accepted = c.sink.accepted := by
    intro closes h c' st' run'
    rcases h with closed | left
    · exact (Run.silent (.inl ⟨closed, closes closed⟩) run').1
    · exact (Run.silent (.inr left) run').1
  -- between two changes the cut belongs to a closed connection; within a cycle it is `update-start`
  rcases Run.between_or_within new run with hb | ⟨c₁, change, st₁, heard, hb, h⟩
  · have closes : c.phase = .closed → c.cycle = none := fun _ => hb.cycle
    cases hb with
    | idle cycle phase session sent =>
      refine ⟨⟨[], sent, isCut_nil, fun h => absurd rfl h⟩, adds,
        fun _ => .inl phase, fun active lost => ?_, silent closes⟩
      rw [session, active] at lost
      cases lost
    | closed cycle phase cut sent =>
      exact ⟨⟨_, sent, cut, fun _ => .inr phase⟩, adds, fun _ => .inr phase,
        fun _ _ => phase, silent closes⟩
  · cases h.handled with
    | ended _ _ _ _ ends => cases ends
    | waiting opens b _ s =>
      obtain ⟨-, sent⟩ := hb.frames opens.phase
      have isSome : c.cycle.isSome = true := s.isSome
      have waits : c.cycle ≠ none := fun h => by rw [h] at isSome; cases isSome
      have awaiting : c.phase ≠ .closed := by rw [b.phase]; exact fun h => by cases h
      refine ⟨⟨[.updateStart], ?_, isCut_start, fun _ => .inl isSome⟩, adds,
        fun h => absurd h waits, fun _ lost => ?_, silent fun h => absurd h awaiting⟩
      · rw [b.sent]; exact sent.append _ rfl
      · rw [s.active, opens.active] at lost
        cases lost

end Connection

namespace Sample

/-- What the client is sent for the edit is one whole frame. -/
theorem delivered_framed :
    Connection.IsNew client ∧
    Connection.Run Tree.resolver client grown delivered.1.1 delivered.2 ∧
    delivered.1.1.sink.accepted.map Message.kind = ["update-start", "update", "update-done"] ∧
    Connection.FramesThen delivered.1.1.sink.accepted [] := by
  have new : Connection.IsNew client := ⟨rfl, rfl, rfl⟩
  have run : Connection.Run Tree.resolver client grown delivered.1.1 delivered.2 :=
    Connection.Run.start.handling (.of_run Tree.resolver rfl edit grown)
  have facts : delivered.1.1.sink.accepted.map Message.kind =
      ["update-start", "update", "update-done"] ∧
      delivered.1.1.cycle.isSome = false ∧ delivered.1.1.phase = .idle := by
    decide +kernel
  obtain ⟨kinds, cycle, phase⟩ := facts
  obtain ⟨⟨tail, sent, -, cut⟩, -⟩ := Connection.Run.framed new run
  -- a cut would have to belong to a cycle or to a closed connection
  cases tail with
  | nil => exact ⟨new, run, kinds, sent⟩
  | cons m tail =>
    rcases cut (List.cons_ne_nil m tail) with waits | closed
    · rw [cycle] at waits
      cases waits
    · rw [phase] at closed
      cases closed

end Sample

end HotReload
