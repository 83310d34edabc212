import HotReload.Session.Connection

/-!
# The end of a cycle

A cycle ends with a result, and the client is sent what reports it, or is found gone on the way.

* `Sink.Takes`: a sink takes several messages.
* `Connection.conclude_ends`: the ways in which the result of a cycle is sent.
-/

namespace HotReload

/-! ### Sinks -/

namespace Sink

/-- A sink takes messages one after the other. -/
inductive Takes : Sink → List Message → Sink → Prop where
  | nil (s : Sink) : Takes s [] s
  | cons {s s₁ s' : Sink} {m : Message} {ms : List Message}
      (h : s.accept? m = some s₁) (t : Takes s₁ ms s') : Takes s (m :: ms) s'

theorem accepted_of_accept? {s s' : Sink} {m : Message} (h : s.accept? m = some s') :
    s'.accepted = s.accepted ++ [m] := by
  unfold accept? at h
  split at h
  · cases h; rfl
  · cases h

theorem Takes.accepted {s s' : Sink} {ms : List Message} (h : Takes s ms s') :
    s'.accepted = s.accepted ++ ms := by
  induction h with
  | nil => simp
  | cons h _ ih => rw [ih, accepted_of_accept? h, List.append_assoc]; rfl

end Sink

namespace Connection

/-! ### How a cycle ends -/

/-- The messages that report the result of a cycle, up to its end. -/
def reports : Except UpdateFault (Option Payload) → List Message
  | .ok none => [.updateDone]
  | .ok (some payload) => [.update payload, .updateDone]
  | .error fault => [.error (Report.ofFault fault), .updateDone]

/-- The outcome of a cycle whose result is sent. -/
def outcomeOf : Except UpdateFault (Option Payload) → Outcome
  | .ok none => .unchanged
  | .ok (some payload) => .updated payload.modules.length
  | .error fault => if fault.isEntryLost then .invalidated else .failed

/-- Whether a result ends the session. -/
def losesEntry : Except UpdateFault (Option Payload) → Bool
  | .ok _ => false
  | .error fault => fault.isEntryLost

/-- How a cycle ends with a result: all of it is sent, or the client is found gone before that.  A
lost entry file ends the session. -/
inductive Ends (c : Connection) (result : Except UpdateFault (Option Payload)) : Moved → Prop where
  | sent {sink : Sink} (h : c.sink.Takes (reports result) sink) :
      Ends c result
        ({ c with
            session := { c.session with active := c.session.active && !losesEntry result }
            sink
            phase := if losesEntry result then .closed else .idle
            cycle := none },
          some (outcomeOf result))
  | left {sink : Sink} {ms : List Message} (active : Bool) (h : c.sink.Takes ms sink)
      (cut : ms <+: reports result) (short : ms ≠ reports result) :
      Ends c result
        ({ c with
            session := { c.session with active }
            sink
            phase := .closed
            cycle := none },
          some .discarded)

/-- What has ended has an outcome. -/
theorem Ends.ne_none {c : Connection} {result : Except UpdateFault (Option Payload)} {moved : Moved}
    (h : Ends c result moved) : moved.2 ≠ none := by
  cases h <;> exact Option.some_ne_none _

theorem send_cases (c : Connection) (m : Message) (next : Connection → Moved) :
    c.send m next = c.discard ∨
      ∃ sink, c.sink.accept? m = some sink ∧ c.send m next = next { c with sink } := by
  unfold send
  split
  · exact .inl rfl
  · next sink h => exact .inr ⟨sink, h, rfl⟩

/-- Sending `update-done`. -/
theorem complete_cases (c : Connection) (phase : Phase) (outcome : Outcome) :
    (∃ sink, c.sink.Takes [.updateDone] sink ∧
      c.complete phase outcome = ({ c with sink, phase, cycle := none }, some outcome)) ∨
    c.complete phase outcome = c.discard := by
  rcases send_cases c .updateDone (·.finish phase outcome) with h | ⟨sink, hs, h⟩
  · exact .inr h
  · exact .inl ⟨sink, .cons hs (.nil _), h⟩

/-- Sending one message and `update-done` after it. -/
theorem send_complete_cases (c : Connection) (m : Message) (phase : Phase) (outcome : Outcome) :
    (∃ sink, c.sink.Takes [m, .updateDone] sink ∧
      c.send m (·.complete phase outcome) =
        ({ c with sink, phase, cycle := none }, some outcome)) ∨
    ∃ sink ms, c.sink.Takes ms sink ∧ ms <+: [m, .updateDone] ∧ ms ≠ [m, .updateDone] ∧
      c.send m (·.complete phase outcome) =
        ({ c with sink, phase := .closed, cycle := none }, some .discarded) := by
  rcases send_cases c m (·.complete phase outcome) with h | ⟨sink, hs, h⟩
  · exact .inr ⟨c.sink, [], .nil _, List.nil_prefix, by simp, h⟩
  · rcases complete_cases { c with sink } phase outcome with ⟨sink', hs', h'⟩ | h'
    · exact .inl ⟨sink', .cons hs hs', h.trans h'⟩
    · exact .inr ⟨sink, [m], .cons hs (.nil _), ⟨[.updateDone], rfl⟩, by simp, h.trans h'⟩

theorem conclude_of_isGone {c : Connection} (h : c.isGone = true)
    (result : Except UpdateFault (Option Payload)) : c.conclude result = c.discard := by
  unfold conclude
  rw [if_pos h]

theorem conclude_nothing {c : Connection} (h : c.isGone = false) :
    c.conclude (.ok none) = { c with phase := .sending }.complete .idle .unchanged := by
  unfold conclude
  rw [h]
  rfl

theorem conclude_update {c : Connection} (h : c.isGone = false) (payload : Payload) :
    c.conclude (.ok (some payload)) = { c with phase := .sending }.send (.update payload)
      (·.complete .idle (.updated payload.modules.length)) := by
  unfold conclude
  rw [h]
  rfl

theorem conclude_fault {c : Connection} (h : c.isGone = false) {fault : UpdateFault}
    (kept : fault.isEntryLost = false) :
    c.conclude (.error fault) = { c with phase := .sending }.send
      (.error (Report.ofFault fault)) (·.complete .idle .failed) := by
  unfold conclude
  simp only [h, kept]
  rfl

theorem conclude_entryLost {c : Connection} (h : c.isGone = false) {fault : UpdateFault}
    (lost : fault.isEntryLost = true) :
    c.conclude (.error fault) =
      { c with session := { c.session with active := false }, phase := .sending }.send
        (.error (Report.ofFault fault)) (·.complete .closed .invalidated) := by
  unfold conclude
  simp only [h, lost]
  rfl

/-- **The end of a cycle.** -/
theorem conclude_ends (c : Connection) (result : Except UpdateFault (Option Payload)) :
    Ends c result (c.conclude result) := by
  -- a client that is gone at the start, or does not take a lone `update-done`, was sent nothing
  have gone : Ends c result c.discard :=
    .left c.session.active (.nil _) List.nil_prefix (by
      rcases result with fault | _ | payload <;> simp [reports])
  cases hg : c.isGone with
  | true => rw [conclude_of_isGone hg]; exact gone
  | false =>
    rcases result with fault | _ | payload
    · cases lost : fault.isEntryLost with
      | true =>
        rw [conclude_entryLost hg lost]
        rcases send_complete_cases
          { c with session := { c.session with active := false }, phase := .sending }
          (.error (Report.ofFault fault)) .closed .invalidated with
          ⟨sink, hs, h⟩ | ⟨sink, ms, hs, cut, short, h⟩
        · have := @Ends.sent c (.error fault) sink hs
          rw [h]
          simpa [losesEntry, outcomeOf, lost] using this
        · rw [h]
          exact @Ends.left c (.error fault) sink ms false hs cut short
      | false =>
        rw [conclude_fault hg lost]
        rcases send_complete_cases { c with phase := .sending } (.error (Report.ofFault fault))
          .idle .failed with ⟨sink, hs, h⟩ | ⟨sink, ms, hs, cut, short, h⟩
        · have := @Ends.sent c (.error fault) sink hs
          rw [h]
          simpa [losesEntry, outcomeOf, lost] using this
        · rw [h]
          exact @Ends.left c (.error fault) sink ms c.session.active hs cut short
    · rw [conclude_nothing hg]
      rcases complete_cases { c with phase := .sending } .idle .unchanged with ⟨sink, hs, h⟩ | h
      · have := @Ends.sent c (.ok none) sink hs
        rw [h]
        simpa [losesEntry, outcomeOf] using this
      · rw [h]; exact gone
    · rw [conclude_update hg]
      rcases send_complete_cases { c with phase := .sending } (.update payload) .idle
        (.updated payload.modules.length) with ⟨sink, hs, h⟩ | ⟨sink, ms, hs, cut, short, h⟩
      · have := @Ends.sent c (.ok (some payload)) sink hs
        rw [h]
        simpa [losesEntry, outcomeOf] using this
      · rw [h]
        exact @Ends.left c (.ok (some payload)) sink ms c.session.active hs cut short

end Connection

end HotReload
