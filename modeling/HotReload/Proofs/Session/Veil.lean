import HotReload.Proofs.Resolver.Veil
import HotReload.Proofs.Session.Worker

/-!
# The text of an internal fault in a session

A cycle that runs into an internal fault sends a report that says nothing of its text, and nothing
of it stays in the session.  So two resolvers that answer alike but for such texts lead a worker to
the very same state.

* `Connection.conclude_veil`: what is sent does not depend on the text.
* `Worker.step?_matches`: a step of a worker at both resolvers.
-/

namespace HotReload

variable {σ σ' : Type} {r : Resolver σ} {r' : Resolver σ'} {R : σ → σ' → Prop} {st : σ} {st' : σ'}

/-- How the reaction to a change stands, without the text of an internal fault. -/
def Progress.veil : Progress → Progress
  | .settled (.error fault) => .settled (.error fault.veil)
  | progress => progress

theorem Probe.next_blind (s : Session) (change : Change) (probe : Probe) :
    (probe.next s change).Blind Progress.veil := by
  cases probe with
  | dependencies m =>
    intro x y same
    rcases veiled_eq_iff.mp same with ⟨e, e', rfl, rfl, he⟩ | ⟨deps, rfl, rfl⟩
    · simp only [Progress.veil, UpdateFault.veil_ofResolve, he]
    · rfl
  | graph search =>
    refine search.next_blind.map fun x y same => ?_
    rcases veiled_eq_iff.mp same with ⟨e, e', rfl, rfl, he⟩ | ⟨found, rfl, rfl⟩
    · cases e <;> cases e' <;> cases he <;> rfl
    · rfl

namespace Connection

/-- **What is sent of an internal fault** does not depend on its text. -/
theorem conclude_veil (c : Connection) (fault : UpdateFault) :
    c.conclude (.error fault.veil) = c.conclude (.error fault) := by
  have report : Report.ofFault fault.veil = Report.ofFault fault := by cases fault <;> rfl
  simp only [conclude, report, UpdateFault.isEntryLost_veil]

theorem advance_veil (c : Connection) (change : Change) (progress : Progress) :
    c.advance change progress.veil = c.advance change progress := by
  match progress with
  | .probing probe => rfl
  | .settled (.error fault) => exact conclude_veil c fault
  | .settled (.ok found) => rfl

theorem receive_veil (c : Connection) (answer : Except ResolveFault (List BuiltModule)) :
    c.receive (veiled answer) = c.receive answer := by
  cases answer with
  | error fault =>
    show c.conclude (.error (.ofResolve fault.veil)) = c.conclude (.error (.ofResolve fault))
    rw [← UpdateFault.veil_ofResolve]
    exact conclude_veil c _
  | ok built => rfl

/-- **A step of a cycle at both resolvers.** -/
theorem step?_matches (m : r.Matches r' R) (h : R st st') (c : Connection) :
    (c.step? r st = none ∧ c.step? r' st' = none) ∨
      ∃ moved st₁ st₁', c.step? r st = some (moved, st₁) ∧ c.step? r' st' = some (moved, st₁') ∧
        R st₁ st₁' := by
  unfold step?
  cases c.cycle with
  | none => exact .inl ⟨rfl, rfl⟩
  | some cycle =>
    cases cycle with
    | probing change probe =>
      obtain ⟨same, h₁⟩ := m.answer h (probe.next_blind c.session change)
      have advance : c.advance change ((probe.next c.session change).answer r' st').1 =
          c.advance change ((probe.next c.session change).answer r st).1 := by
        rw [← advance_veil, ← same, advance_veil]
      exact .inr ⟨_, _, _, rfl, congrArg (fun moved => some (moved, _)) advance, h₁⟩
    | ordering job => exact .inr ⟨_, _, _, rfl, rfl, m.order h job⟩
    | building job =>
      obtain ⟨same, h₁⟩ := m.deliver h job
      simp only
      generalize r.deliver job st = delivered at same h₁ ⊢
      generalize r'.deliver job st' = delivered' at same h₁ ⊢
      obtain ⟨_ | answer, st₁⟩ := delivered <;> obtain ⟨_ | answer', st₁'⟩ := delivered'
      · exact .inl ⟨rfl, rfl⟩
      · cases same
      · cases same
      · have receive : c.receive answer' = c.receive answer := by
          rw [← receive_veil, ← Option.some.inj same, receive_veil]
        exact .inr ⟨_, _, _, rfl, congrArg (fun moved => some (moved, _)) receive, h₁⟩

end Connection

/-- **A step of a worker at both resolvers.** -/
theorem Worker.step?_matches (m : r.Matches r' R) (h : R st st') (w : Worker) :
    (w.step? r st = none ∧ w.step? r' st' = none) ∨
      ∃ w₁ st₁ st₁', w.step? r st = some (w₁, st₁) ∧ w.step? r' st' = some (w₁, st₁') ∧
        R st₁ st₁' := by
  unfold step?
  split
  · exact .inl ⟨rfl, rfl⟩
  · split
    · rcases w.connection.step?_matches m h with ⟨hs, hs'⟩ | ⟨moved, st₁, st₁', hs, hs', h₁⟩
      · rw [hs, hs']
        exact .inl ⟨rfl, rfl⟩
      · rw [hs, hs']
        exact .inr ⟨_, _, _, rfl, rfl, h₁⟩
    · split
      · exact .inr ⟨_, _, _, rfl, rfl, h⟩
      · split
        · exact .inl ⟨rfl, rfl⟩
        · exact .inr ⟨_, _, _, rfl, rfl, h⟩

end HotReload
