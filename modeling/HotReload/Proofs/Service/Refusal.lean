import HotReload.Proofs.Service.Run
import HotReload.Proofs.Session.Veil

/-!
# The reason of a refusal in a service

Two services are alike that differ at most in the reason for which their source will refuse the next
listener.  Whatever happens to both of them, they stay alike: the reason is told to nobody but to
the one who is refused.

* `Service.Alike`: two services are alike.
* `Service.Alike.step?`, `Service.Alike.connect`: a worker goes on, and a client comes, at resolvers
  that match.
-/

namespace HotReload

namespace Source

theorem detach_refusal (s : Source) : s.detach.refusal = s.refusal := by
  unfold detach
  split
  · rfl
  · split <;> rfl

theorem detach_refusing (s : Source) (refusal : Option String) :
    ({ s with refusal } : Source).detach = { s.detach with refusal } := by
  unfold detach
  split
  · rfl
  · split <;> rfl

end Source

namespace Fanout

variable {α : Type} (f : Fanout α) (id : SubscriberId)

theorem unsubscribe_refusal : (f.unsubscribe id).2.source.refusal = f.source.refusal := by
  unfold unsubscribe
  split
  · simp only
    split
    · exact f.source.detach_refusal
    · rfl
  · rfl

theorem unsubscribe_refusing (refusal : Option String) :
    ({ f with source := { f.source with refusal } } : Fanout α).unsubscribe id =
      ((f.unsubscribe id).1,
        { (f.unsubscribe id).2 with
          source := { (f.unsubscribe id).2.source with refusal } }) := by
  unfold unsubscribe
  simp only [Source.detach_refusing]
  split
  · split <;> rfl
  · rfl

end Fanout

theorem Store.unregister_refusal {β : Type} (s : Store ConnectionId β) (id : ConnectionId) :
    (s.unregister id).2.fanout.source.refusal = s.fanout.source.refusal := by
  unfold unregister
  split
  · rfl
  · exact s.fanout.unsubscribe_refusal _

namespace Service

/-- The service with another reason for which its source will refuse the next listener. -/
def refusing (s : Service) (refusal : Option String) : Service :=
  s.withSource { s.store.fanout.source with refusal }

/-- The services differ at most in the reason for which the source will refuse the next listener. -/
inductive Alike (s : Service) : Service → Prop where
  | refusing (refusal : Option String)
      (same : refusal.isSome = s.store.fanout.source.refusal.isSome) : Alike s (s.refusing refusal)

namespace Alike

variable {s s' : Service}

theorem refl (s : Service) : s.Alike s := .refusing s.store.fanout.source.refusal rfl

theorem worker? (a : s.Alike s') (id : ConnectionId) : s'.worker? id = s.worker? id := by
  cases a
  rfl

theorem onWorker (a : s.Alike s') (id : ConnectionId) (f : Worker → Worker) :
    (s.onWorker id f).Alike (s'.onWorker id f) := by
  obtain ⟨refusal, same⟩ := a
  exact .refusing refusal same

theorem refuse (a : s.Alike s') (reason reason' : String) :
    (s.withSource { s.store.fanout.source with refusal := some reason }).Alike
      (s'.withSource { s'.store.fanout.source with refusal := some reason' }) := by
  cases a
  exact .refusing (some reason') rfl

theorem cling (a : s.Alike s') :
    (s.withSource { s.store.fanout.source with isSticky := true }).Alike
      (s'.withSource { s'.store.fanout.source with isSticky := true }) := by
  obtain ⟨refusal, same⟩ := a
  exact .refusing refusal same

/-- **Taking a client out** of both. -/
theorem disconnect (a : s.Alike s') (id : ConnectionId) :
    (s'.disconnect id).1 = (s.disconnect id).1 ∧
      (s.disconnect id).2.Alike (s'.disconnect id).2 := by
  obtain ⟨refusal, same⟩ := a
  unfold Service.disconnect Store.unregister
  rw [show (s.refusing refusal).store.entries = s.store.entries from rfl]
  cases Assoc.get? s.store.entries id with
  | none => exact ⟨rfl, .refusing refusal same⟩
  | some entry =>
    simp only [show (s.refusing refusal).store.fanout =
      { s.store.fanout with source := { s.store.fanout.source with refusal } } from rfl,
      Fanout.unsubscribe_refusing]
    refine ⟨trivial, .refusing refusal ?_⟩
    rw [same, ← s.store.fanout.unsubscribe_refusal entry.subscription]
    rfl

/-- **Reporting a change** to both. -/
theorem emit (a : s.Alike s') (change : Change) :
    (s'.emit change).1 = (s.emit change).1 ∧ (s.emit change).2.Alike (s'.emit change).2 := by
  have tell : ∀ (ids : List ConnectionId) {s s' : Service}, s.Alike s' →
      (tellAll (hand change) ids s).Alike (tellAll (hand change) ids s') := by
    intro ids
    induction ids with
    | nil => exact fun a => a
    | cons id ids ih => exact fun a => ih (a.onWorker id _)
  have recipients : s'.store.fanout.recipients? = s.store.fanout.recipients? := by
    cases a
    rfl
  unfold Service.emit
  rw [recipients]
  cases s.store.fanout.recipients? with
  | none => exact ⟨rfl, a⟩
  | some ids => exact ⟨rfl, tell ids a⟩

theorem worked (a : s.Alike s') (id : ConnectionId) (w : Worker) :
    (s.worked id w).Alike (s'.worked id w) := by
  unfold Service.worked
  cases w.farewell? with
  | none => exact a.onWorker id _
  | some exit => exact ((a.onWorker id _).disconnect id).2

variable {σ σ' : Type} {r : Resolver σ} {r' : Resolver σ'} {R : σ → σ' → Prop} {st : σ} {st' : σ'}

/-- **A step of a worker** of both, at resolvers that match. -/
theorem step? (a : s.Alike s') (m : r.Matches r' R) (h : R st st') (id : ConnectionId) :
    (s.step? r id st = none ∧ s'.step? r' id st' = none) ∨
      ∃ s₁ st₁ s₁' st₁', s.step? r id st = some (s₁, st₁) ∧ s'.step? r' id st' = some (s₁', st₁') ∧
        s₁.Alike s₁' ∧ R st₁ st₁' := by
  unfold Service.step?
  rw [a.worker? id]
  cases s.worker? id with
  | none => exact .inl ⟨rfl, rfl⟩
  | some w =>
    rcases w.step?_matches m h with ⟨hs, hs'⟩ | ⟨w₁, st₁, st₁', hs, hs', h₁⟩
    · simp only [hs, hs']
      exact .inl ⟨trivial, trivial⟩
    · simp only [hs, hs']
      exact .inr ⟨_, _, _, _, rfl, rfl, a.worked id w₁, h₁⟩

/-- Taking a client in, given what its discoveries brought. -/
theorem enrol (a : s.Alike s') (platform : String) (entry : Path) (sink : Sink)
    {seed seed' : Except ResolveFault Graph} (found : veiled seed = veiled seed') :
    (s'.enrol platform entry sink seed').1.mapError UpdateFault.veil =
        (s.enrol platform entry sink seed).1.mapError UpdateFault.veil ∧
      (s.enrol platform entry sink seed).2.Alike (s'.enrol platform entry sink seed').2 := by
  obtain ⟨refusal, same⟩ := a
  rcases veiled_eq_iff.mp found with ⟨e, e', rfl, rfl, he⟩ | ⟨g, rfl, rfl⟩
  · refine ⟨?_, .refusing refusal same⟩
    show Except.error (UpdateFault.ofResolve e').veil = Except.error (UpdateFault.ofResolve e).veil
    rw [UpdateFault.veil_ofResolve, UpdateFault.veil_ofResolve, he]
  · unfold Service.enrol Store.register Fanout.subscribe Source.attach
    rw [show (s.refusing refusal).store.fanout.isAttached = s.store.fanout.isAttached from rfl]
    cases s.store.fanout.isAttached with
    | true => exact ⟨rfl, .refusing refusal same⟩
    | false =>
      rw [show (s.refusing refusal).store.fanout.source.isAttached =
        s.store.fanout.source.isAttached from rfl]
      cases s.store.fanout.source.isAttached with
      | true => exact ⟨rfl, .refusing refusal same⟩
      | false =>
        rw [show (s.refusing refusal).store.fanout.source.refusal = refusal from rfl]
        cases hr : s.store.fanout.source.refusal with
        | none =>
          rw [hr, Option.isSome_none, Option.isSome_eq_false_iff, Option.isNone_iff_eq_none] at same
          subst same
          exact ⟨rfl, .refusing none rfl⟩
        | some reason =>
          rw [hr, Option.isSome_some, Option.isSome_iff_exists] at same
          obtain ⟨reason', rfl⟩ := same
          exact ⟨rfl, .refusing none rfl⟩

/-- **Connecting a client** to both, at resolvers that match: it is connected under the same number,
or it learns of the same fault but for an internal text. -/
theorem connect (a : s.Alike s') (m : r.Matches r' R) (h : R st st') (platform : String)
    (entry : Path) (sink : Sink) :
    (s'.connect r' platform entry sink st').1.mapError UpdateFault.veil =
        (s.connect r platform entry sink st).1.mapError UpdateFault.veil ∧
      (s.connect r platform entry sink st).2.1.Alike (s'.connect r' platform entry sink st').2.1 ∧
      R (s.connect r platform entry sink st).2.2 (s'.connect r' platform entry sink st').2.2 := by
  obtain ⟨found, h₁⟩ := m.discover h platform entry
  obtain ⟨answer, a₁⟩ := a.enrol platform entry sink found
  unfold Service.connect
  simp only
  generalize s.enrol platform entry sink (Search.discover r platform entry st).1 = taken
    at answer a₁ ⊢
  generalize s'.enrol platform entry sink (Search.discover r' platform entry st').1 = taken'
    at answer a₁ ⊢
  obtain ⟨_ | id, s₁⟩ := taken <;> obtain ⟨_ | id', s₁'⟩ := taken'
  · exact ⟨answer, a₁, h₁⟩
  · cases answer
  · cases answer
  · obtain rfl : id' = id := Except.ok.inj answer
    exact ⟨rfl, a₁.onWorker id' _, h₁⟩

end Alike

end Service

end HotReload
