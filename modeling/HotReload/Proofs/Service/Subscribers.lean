import HotReload.Proofs.Service.Registry

/-!
# Subscribers and their order

A fan-out has its subscribers under their numbers and beside them the order in which they came.
`Fanout.Sound` says that the order enumerates the subscribers, and that the fan-out takes itself to
be attached exactly while it has some; every operation keeps it.

* `Fanout.Sound.recipients`: those who are told of a change are the subscribers.
* `Fanout.Sound.subscribe_ok`, `Fanout.subscribe_error`: subscribing adds one, or changes nothing but
  the source.
* `Fanout.unsubscribe_fst`, `Fanout.unsubscribe_subscribers`: unsubscribing says whether the
  subscriber was there, and takes out no other.
* `Fanout.Sound.unsubscribe`: what is left is sound.
-/

namespace HotReload

namespace Fanout

variable {α : Type} {f f' : Fanout α}

/-- The order of the subscribers and the subscribers go together.  Numbers are given out in
ascending order. -/
structure Sound (f : Fanout α) : Prop where
  ordered : f.order = f.subscribers.map (·.1)
  ascending : f.order.Pairwise (· < ·)
  below : ∀ id ∈ f.order, id < f.nextId
  attached : f.isAttached = !f.subscribers.isEmpty
  held : f.isAttached = true → f.source.isAttached = true

namespace Sound

theorem empty : ({} : Fanout α).Sound where
  ordered := rfl
  ascending := .nil
  below _ h := absurd h List.not_mem_nil
  attached := rfl
  held h := by cases h

theorem nodup (h : f.Sound) : f.order.Nodup :=
  h.ascending.imp fun lt => Nat.ne_of_lt lt

/-- The next number is that of no subscriber. -/
theorem unused (h : f.Sound) : Assoc.contains f.subscribers f.nextId = false := by
  rw [Assoc.contains_eq_false_iff, ← h.ordered]
  exact fun taken => Nat.lt_irrefl _ (h.below _ taken)

/-- Who is told of a change: the subscribers. -/
theorem recipients (h : f.Sound) : f.inOrder = f.subscribers.map (·.2) :=
  inOrder_eq h.ordered h.nodup

/-- A change of the source that leaves its listener in place. -/
theorem withSource (h : f.Sound) {source : Source}
    (same : source.isAttached = f.source.isAttached) : ({ f with source } : Fanout α).Sound :=
  { h with held := fun attached => same.trans (h.held attached) }

end Sound

/-- **Subscribing** adds one under the next number. -/
theorem Sound.subscribe_ok (h : f.Sound) {subscriber : α} {id : SubscriberId}
    (joins : f.subscribe subscriber = (.ok id, f')) :
    f'.Sound ∧ id = f.nextId ∧ f'.nextId = id + 1 ∧
      f'.subscribers = f.subscribers ++ [(id, subscriber)] := by
  rcases f.subscribe_cases subscriber with ⟨reason, -, -, -, eq⟩ | ⟨source, listens, eq⟩
  · rw [eq] at joins
    cases joins
  · rw [eq, Assoc.insert_of_not_contains h.unused] at joins
    cases joins
    refine ⟨?_, rfl, rfl, rfl⟩
    exact {
      ordered := by simp [h.ordered]
      ascending := ascending_concat h.ascending h.below
      below := by
        intro id mem
        rcases List.mem_append.mp mem with mem | mem
        · exact Nat.lt_succ_of_lt (h.below id mem)
        · rw [List.mem_singleton.mp mem]
          exact Nat.lt_succ_self _
      attached := by simp
      held := fun _ => listens.isAttached h.held }

/-- **A subscriber that is refused** leaves all but the source as it was. -/
theorem subscribe_error {subscriber : α} {reason : String}
    (refused : f.subscribe subscriber = (.error reason, f')) :
    f' = { f with source := f'.source } ∧ f'.source.isAttached = f.source.isAttached := by
  rcases f.subscribe_cases subscriber with ⟨reason', -, -, -, eq⟩ | ⟨source, -, eq⟩
  · rw [eq] at refused
    cases refused
    exact ⟨rfl, rfl⟩
  · rw [eq] at refused
    cases refused

theorem unsubscribe_of_contains {id : SubscriberId}
    (there : Assoc.contains f.subscribers id = true) :
    (f.unsubscribe id).1 = true ∧
      (f.unsubscribe id).2.subscribers = Assoc.erase f.subscribers id ∧
      (f.unsubscribe id).2.order = f.order.filter (· != id) ∧
      (f.unsubscribe id).2.nextId = f.nextId := by
  unfold unsubscribe
  rw [if_pos there]
  dsimp only
  split <;> exact ⟨rfl, rfl, rfl, rfl⟩

theorem unsubscribe_of_not_contains {id : SubscriberId}
    (gone : Assoc.contains f.subscribers id = false) : f.unsubscribe id = (false, f) := by
  rw [unsubscribe, gone]
  rfl

/-- The answer to an unsubscription is whether the subscriber was there. -/
theorem unsubscribe_fst (f : Fanout α) (id : SubscriberId) :
    (f.unsubscribe id).1 = Assoc.contains f.subscribers id := by
  cases there : Assoc.contains f.subscribers id with
  | true => exact (unsubscribe_of_contains there).1
  | false => rw [unsubscribe_of_not_contains there]

/-- **Unsubscribing** takes out the subscriber and no other. -/
theorem unsubscribe_subscribers (f : Fanout α) (id : SubscriberId) :
    (f.unsubscribe id).2.subscribers = Assoc.erase f.subscribers id := by
  cases there : Assoc.contains f.subscribers id with
  | true => exact (unsubscribe_of_contains there).2.1
  | false => rw [unsubscribe_of_not_contains there, Assoc.erase_of_not_contains there]

theorem unsubscribe_nextId (f : Fanout α) (id : SubscriberId) :
    (f.unsubscribe id).2.nextId = f.nextId := by
  cases there : Assoc.contains f.subscribers id with
  | true => exact (unsubscribe_of_contains there).2.2.2
  | false => rw [unsubscribe_of_not_contains there]

theorem Sound.unsubscribe_order (h : f.Sound) (id : SubscriberId) :
    (f.unsubscribe id).2.order = f.order.filter (· != id) := by
  cases there : Assoc.contains f.subscribers id with
  | true => exact (unsubscribe_of_contains there).2.2.1
  | false =>
    rw [unsubscribe_of_not_contains there]
    rw [Assoc.contains_eq_false_iff, ← h.ordered] at there
    refine (List.filter_eq_self.mpr fun j mem => ?_).symm
    exact bne_iff_ne.mpr fun same => there (same ▸ mem)

/-- While subscribers are left, the listener stays. -/
theorem Sound.unsubscribe_held (h : f.Sound) (id : SubscriberId)
    (attached : (f.unsubscribe id).2.isAttached = true) :
    (f.unsubscribe id).2.source.isAttached = true := by
  cases there : Assoc.contains f.subscribers id with
  | false =>
    rw [unsubscribe_of_not_contains there] at attached ⊢
    exact h.held attached
  | true =>
    simp only [unsubscribe, there, if_true] at attached ⊢
    split at attached
    · cases attached
    · next kept =>
      rw [if_neg kept]
      exact h.held attached

/-- After the last subscriber the fan-out takes itself to be detached, even where the source keeps
the listener. -/
theorem Sound.unsubscribe_attached (h : f.Sound) (id : SubscriberId) :
    (f.unsubscribe id).2.isAttached = !(f.unsubscribe id).2.subscribers.isEmpty := by
  cases there : Assoc.contains f.subscribers id with
  | false =>
    rw [unsubscribe_of_not_contains there]
    exact h.attached
  | true =>
    have some_before : f.isAttached = true := by
      rw [h.attached, Bool.not_eq_true', List.isEmpty_eq_false_iff]
      intro none
      simp [Assoc.contains, none] at there
    simp only [unsubscribe, there, if_true, some_before, Bool.and_true]
    cases left : (Assoc.erase f.subscribers id).isEmpty <;> simp [left]

theorem Sound.unsubscribe (h : f.Sound) (id : SubscriberId) : (f.unsubscribe id).2.Sound where
  ordered := by
    rw [h.unsubscribe_order, unsubscribe_subscribers, h.ordered, List.filter_map, Assoc.erase]
    rfl
  ascending := by
    rw [h.unsubscribe_order]
    exact h.ascending.filter _
  below j mem := by
    rw [h.unsubscribe_order] at mem
    rw [unsubscribe_nextId]
    exact h.below j (List.mem_filter.mp mem).1
  attached := h.unsubscribe_attached id
  held := h.unsubscribe_held id

end Fanout

end HotReload
