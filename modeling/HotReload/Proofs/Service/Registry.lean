import HotReload.Proofs.Assoc
import HotReload.Service.Store
import Mathlib.Data.List.Nodup

/-!
# The registry of a service

The store and its fan-out keep the same connections twice: the store has a session for each, the
fan-out a subscription.  `Store.Sound` says that the two go together, and that the fan-out takes
itself to be attached exactly while a session is registered.

* `Store.register_cases`: a registration adds a session, or changes nothing but the next number.
* `Store.Sound.unregister_eq`: what is left when a session is taken out.
* `Store.Sound.joined`, `Store.Sound.unregister`: the registry stays sound.
-/

namespace HotReload

/-- Numbers that are given out one after the other ascend. -/
theorem ascending_concat {numbers : List Nat} {next : Nat} (h : numbers.Pairwise (· < ·))
    (below : ∀ n ∈ numbers, n < next) : (numbers ++ [next]).Pairwise (· < ·) := by
  rw [List.pairwise_append]
  refine ⟨h, List.pairwise_singleton _ _, fun n hn m hm => ?_⟩
  rw [List.mem_singleton.mp hm]
  exact below n hn

/-! ### Sources -/

namespace Source

/-- The listeners that came and did not leave are the listener that is there. -/
def Counted (s : Source) : Prop := s.attaches = s.detaches + s.isAttached.toNat

theorem Counted.detach {s : Source} (h : s.Counted) : s.detach.Counted := by
  unfold Counted at h
  unfold Source.detach
  split
  · exact h
  · split
    · next attached =>
      rw [attached] at h
      simpa [Counted] using h
    · exact h

/-- A listener that is to leave is kept where the source clings to it. -/
theorem detach_cases {s : Source} (attached : s.isAttached = true) :
    (s.isSticky = true ∧ s.detach = { s with isSticky := false }) ∨
    (s.isSticky = false ∧
      s.detach = { s with isAttached := false, detaches := s.detaches + 1 }) := by
  unfold detach
  cases sticky : s.isSticky with
  | true => exact .inl ⟨rfl, rfl⟩
  | false => exact .inr ⟨rfl, by simp [attached]⟩

end Source

/-! ### Subscribing -/

/-- The ways in which a fan-out comes to listen to its source. -/
inductive Fanout.Listens {α : Type} (f : Fanout α) : Source → Prop where
  | already (h : f.isAttached = true) : Listens f f.source
  /-- The source still has the listener that it was to let go. -/
  | still (h : f.isAttached = false) (kept : f.source.isAttached = true) : Listens f f.source
  | anew (h : f.isAttached = false) (bare : f.source.isAttached = false)
      (welcome : f.source.refusal = none) :
      Listens f { f.source with isAttached := true, attaches := f.source.attaches + 1 }

namespace Fanout

variable {α : Type} {f : Fanout α} {source : Source}

theorem Listens.isAttached (h : f.Listens source)
    (held : f.isAttached = true → f.source.isAttached = true) : source.isAttached = true := by
  cases h with
  | already attached => exact held attached
  | still _ kept => exact kept
  | anew => rfl

theorem Listens.counted (h : f.Listens source) (counted : f.source.Counted) : source.Counted := by
  cases h with
  | already => exact counted
  | still => exact counted
  | anew _ bare =>
    unfold Source.Counted at counted ⊢
    rw [bare] at counted
    simpa using counted

theorem Listens.isSticky (h : f.Listens source) : source.isSticky = f.source.isSticky := by
  cases h <;> rfl

theorem Listens.refusal (h : f.Listens source) : source.refusal = f.source.refusal := by
  cases h <;> rfl

/-- **Subscribing** fails where the source refuses the listener that it needs. -/
theorem subscribe_cases (f : Fanout α) (subscriber : α) :
    (∃ reason, f.isAttached = false ∧ f.source.isAttached = false ∧
      f.source.refusal = some reason ∧
      f.subscribe subscriber =
        (.error reason, { f with source := { f.source with refusal := none } })) ∨
    ∃ source, f.Listens source ∧
      f.subscribe subscriber =
        (.ok f.nextId,
          { source
            subscribers := Assoc.insert f.subscribers f.nextId subscriber
            order := f.order ++ [f.nextId]
            nextId := f.nextId + 1
            isAttached := true }) := by
  -- the source is asked only where the fan-out takes itself to be detached, and it refuses only
  -- where it has no listener left
  cases attached : f.isAttached with
  | true =>
    refine .inr ⟨f.source, .already attached, ?_⟩
    simp [subscribe, attached, register]
  | false =>
    cases kept : f.source.isAttached with
    | true =>
      refine .inr ⟨f.source, .still attached kept, ?_⟩
      simp [subscribe, attached, Source.attach, kept, register]
    | false =>
      cases refusal : f.source.refusal with
      | some reason =>
        refine .inl ⟨reason, rfl, rfl, rfl, ?_⟩
        simp [subscribe, attached, Source.attach, kept, refusal]
      | none =>
        refine .inr ⟨_, .anew attached kept refusal, ?_⟩
        simp [subscribe, attached, Source.attach, kept, refusal, register]

/-- Where the order enumerates the subscribers, they are told as they stand. -/
theorem inOrder_eq (ordered : f.order = f.subscribers.map (·.1)) (distinct : f.order.Nodup) :
    f.inOrder = f.subscribers.map (·.2) := by
  rw [ordered] at distinct
  rw [inOrder, ordered, List.filterMap_map, ← List.filterMap_eq_map]
  exact List.filterMap_congr fun e he => Assoc.get?_of_mem distinct he

end Fanout

/-! ### Registering -/

namespace Store

variable {β : Type} {s : Store ConnectionId β}

/-- The store with one more session. -/
def joined (s : Store ConnectionId β) (source : Source) (session : β) : Store ConnectionId β where
  fanout :=
    { source
      subscribers := Assoc.insert s.fanout.subscribers s.fanout.nextId s.nextId
      order := s.fanout.order ++ [s.fanout.nextId]
      nextId := s.fanout.nextId + 1
      isAttached := true }
  entries := s.entries ++ [(s.nextId, ⟨s.fanout.nextId, session⟩)]
  nextId := s.nextId + 1

/-- The store after a registration that failed: the source may have used up its refusal, and a
number may be used up. -/
def failed (s : Store ConnectionId β) (refusal : Option String) (nextId : ConnectionId) :
    Store ConnectionId β :=
  { s with
    fanout := { s.fanout with source := { s.fanout.source with refusal } }
    nextId }

/-- **How a registration ends.** -/
theorem register_cases (s : Store ConnectionId β) (seed : Except ResolveFault Graph)
    (session : ConnectionId → Graph → β) :
    (∃ fault refusal nextId, s.nextId ≤ nextId ∧
      s.register seed id session = (.error fault, s.failed refusal nextId)) ∨
    ∃ graph source, seed = .ok graph ∧ s.fanout.Listens source ∧
      s.register seed id session =
        (.ok s.nextId, s.joined source (session s.nextId graph)) := by
  unfold register
  cases seed with
  | error fault => exact .inl ⟨_, s.fanout.source.refusal, s.nextId, Nat.le_refl _, rfl⟩
  | ok graph =>
    rcases s.fanout.subscribe_cases s.nextId with ⟨reason, -, -, -, h⟩ | ⟨source, listens, h⟩
    · simp only [id, h]
      exact .inl ⟨_, none, s.nextId + 1, Nat.le_succ _, rfl⟩
    · simp only [id, h]
      exact .inr ⟨graph, source, rfl, listens, rfl⟩

/-- A graph is registered where the source refuses nobody. -/
theorem register_of_welcome (welcome : s.fanout.source.refusal = none) (graph : Graph)
    (session : ConnectionId → Graph → β) :
    ∃ source, s.fanout.Listens source ∧
      s.register (.ok graph) id session =
        (.ok s.nextId, s.joined source (session s.nextId graph)) := by
  rcases s.fanout.subscribe_cases s.nextId with ⟨reason, -, -, refused, -⟩ | ⟨source, listens, h⟩
  · rw [welcome] at refused
    cases refused
  · refine ⟨source, listens, ?_⟩
    simp only [register, id, h]
    rfl

/-! ### Soundness -/

/-- The subscribers that some registered sessions call for. -/
def subscribersOf (entries : List (ConnectionId × Registration β)) :
    List (SubscriberId × ConnectionId) :=
  entries.map fun e => (e.2.subscription, e.1)

/-- Sessions and subscribers go together: each registered session has one subscription, and there
are no others.  Numbers are given out in ascending order. -/
structure Sound (s : Store ConnectionId β) : Prop where
  subscribed : s.fanout.subscribers = subscribersOf s.entries
  ordered : s.fanout.order = s.entries.map (·.2.subscription)
  ascending : (s.entries.map (·.1)).Pairwise (· < ·)
  below : ∀ e ∈ s.entries, e.1 < s.nextId
  subscriptions : (s.entries.map (·.2.subscription)).Pairwise (· < ·)
  subscriptionsBelow : ∀ e ∈ s.entries, e.2.subscription < s.fanout.nextId
  attached : s.fanout.isAttached = !s.entries.isEmpty
  held : s.fanout.isAttached = true → s.fanout.source.isAttached = true

theorem Sound.empty : ({} : Store ConnectionId β).Sound where
  subscribed := rfl
  ordered := rfl
  ascending := .nil
  below _ h := absurd h List.not_mem_nil
  subscriptions := .nil
  subscriptionsBelow _ h := absurd h List.not_mem_nil
  attached := rfl
  held h := by cases h

/-- A change of the source that leaves its listener in place. -/
theorem Sound.withSource (h : s.Sound) {source : Source}
    (same : source.isAttached = s.fanout.source.isAttached) :
    ({ s with fanout := { s.fanout with source } } : Store ConnectionId β).Sound :=
  { h with held := fun attached => same.trans (h.held attached) }

theorem Sound.nodup (h : s.Sound) : s.ids.Nodup :=
  h.ascending.imp fun lt => Nat.ne_of_lt lt

/-- The subscribers are the registered connections. -/
theorem Sound.subscribers_eq (h : s.Sound) : s.fanout.subscribers.map (·.2) = s.ids := by
  rw [h.subscribed, subscribersOf, List.map_map]
  rfl

/-- Who is told of a change: the registered connections. -/
theorem Sound.recipients (h : s.Sound) : s.fanout.inOrder = s.ids := by
  have ordered : s.fanout.order = s.fanout.subscribers.map (·.1) := by
    rw [h.ordered, h.subscribed, subscribersOf, List.map_map]
    rfl
  have distinct : s.fanout.order.Nodup := by
    rw [h.ordered]
    exact h.subscriptions.imp fun lt => Nat.ne_of_lt lt
  rw [Fanout.inOrder_eq ordered distinct, h.subscribers_eq]

theorem mem_ids {id : ConnectionId} : id ∈ s.ids ↔ s.contains id = true :=
  Assoc.contains_iff.symm

/-- Where a session is registered, the fan-out is attached. -/
theorem Sound.isAttached_of_contains (h : s.Sound) {id : ConnectionId}
    (there : s.contains id = true) : s.fanout.isAttached = true := by
  rw [h.attached, Bool.not_eq_true', List.isEmpty_eq_false_iff]
  intro none
  simp [contains, Assoc.contains, none] at there

/-- Where a session is registered, the source has a listener. -/
theorem Sound.recipients?_of_contains (h : s.Sound) {id : ConnectionId}
    (there : s.contains id = true) : s.fanout.recipients? = some s.ids := by
  rw [Fanout.recipients?, if_pos (h.held (h.isAttached_of_contains there)), h.recipients]

/-- Of the registered sessions, one connection has one subscription. -/
theorem Sound.subscription_eq_iff (h : s.Sound) {e e' : ConnectionId × Registration β}
    (he : e ∈ s.entries) (he' : e' ∈ s.entries) :
    e.2.subscription = e'.2.subscription ↔ e.1 = e'.1 := by
  have subscriptions : (s.entries.map (·.2.subscription)).Nodup :=
    h.subscriptions.imp fun lt => Nat.ne_of_lt lt
  constructor
  · intro same
    rw [List.inj_on_of_nodup_map subscriptions he he' same]
  · intro same
    rw [List.inj_on_of_nodup_map h.nodup he he' same]

theorem unregister_of_not_contains {id : ConnectionId} (gone : s.contains id = false) :
    s.unregister id = (false, s) := by
  rw [unregister, Assoc.get?_eq_none_iff.mpr gone]

/-- The numbers that are left when a session is taken out. -/
theorem ids_unregister (s : Store ConnectionId β) (id : ConnectionId) :
    (s.unregister id).2.ids = s.ids.filter (· != id) := by
  cases there : s.contains id with
  | false =>
    rw [unregister_of_not_contains there]
    refine (List.filter_eq_self.mpr fun j mem => ?_).symm
    rw [bne_iff_ne]
    rintro rfl
    rw [mem_ids, there] at mem
    cases mem
  | true =>
    obtain ⟨entry, here⟩ := Option.isSome_iff_exists.mp (Assoc.get?_isSome.trans there)
    simp only [unregister, here, ids, Assoc.erase, List.filter_map]
    rfl

/-- **What is left when a session is taken out.**  With the last one the source is told to let its
listener go. -/
theorem Sound.unregister_eq (h : s.Sound) {id : ConnectionId} (there : s.contains id = true) :
    s.unregister id =
      (true,
        { s with
          entries := Assoc.erase s.entries id
          fanout :=
            { s.fanout with
              subscribers := subscribersOf (Assoc.erase s.entries id)
              order := (Assoc.erase s.entries id).map (·.2.subscription)
              isAttached := !(Assoc.erase s.entries id).isEmpty
              source :=
                if (Assoc.erase s.entries id).isEmpty then s.fanout.source.detach
                else s.fanout.source } }) := by
  have attached := h.isAttached_of_contains there
  rw [contains, ← Assoc.get?_isSome, Option.isSome_iff_exists] at there
  obtain ⟨entry, hget⟩ := there
  have hmem := Assoc.mem_of_get?_eq hget
  have subscribed : Assoc.contains s.fanout.subscribers entry.subscription = true := by
    rw [Assoc.contains_iff, h.subscribed, subscribersOf, List.map_map]
    exact List.mem_map.mpr ⟨_, hmem, rfl⟩
  -- the subscription is that of this connection alone, so the others keep theirs
  have others (e : ConnectionId × Registration β) (he : e ∈ s.entries) :
      (!(e.2.subscription == entry.subscription)) = !(e.1 == id) := by
    rw [Bool.not_inj_iff, Bool.eq_iff_iff, beq_iff_eq, beq_iff_eq]
    exact h.subscription_eq_iff he hmem
  have left : Assoc.erase s.fanout.subscribers entry.subscription =
      subscribersOf (Assoc.erase s.entries id) := by
    rw [h.subscribed, subscribersOf, Assoc.erase, List.filter_map, subscribersOf, Assoc.erase]
    exact congrArg _ (List.filter_congr others)
  have order : s.fanout.order.filter (· != entry.subscription) =
      (Assoc.erase s.entries id).map (·.2.subscription) := by
    rw [h.ordered, List.filter_map, Assoc.erase]
    exact congrArg _ (List.filter_congr others)
  have empty : (subscribersOf (Assoc.erase s.entries id)).isEmpty =
      (Assoc.erase s.entries id).isEmpty := by
    rw [Bool.eq_iff_iff, List.isEmpty_iff, List.isEmpty_iff, subscribersOf, List.map_eq_nil_iff]
  simp only [unregister, hget, Fanout.unsubscribe, subscribed, if_true, left, order, empty, attached,
    Bool.and_true]
  cases (Assoc.erase s.entries id).isEmpty <;> simp

/-- Nobody is left where the last one is taken out. -/
theorem Sound.erase_isEmpty_iff (h : s.Sound) {id : ConnectionId} (there : s.contains id = true) :
    (Assoc.erase s.entries id).isEmpty = true ↔ s.ids = [id] := by
  rw [List.isEmpty_iff, Assoc.erase, List.filter_eq_nil_iff]
  constructor
  · intro alone
    have same : ∀ j ∈ s.ids, j = id := by
      intro j mem
      obtain ⟨e, here, rfl⟩ := List.mem_map.mp mem
      simpa using alone e here
    have ids := List.eq_replicate_of_mem same
    have nodup := h.nodup
    rw [ids, List.nodup_replicate] at nodup
    have mem := mem_ids.mpr there
    rw [ids] at mem ⊢
    have positive := (List.mem_replicate.mp mem).1
    rw [show s.ids.length = 1 by omega]
    rfl
  · intro ids e here
    have mem : e.1 ∈ s.ids := List.mem_map_of_mem here
    rw [ids, List.mem_singleton] at mem
    simp [mem]

theorem contains_unregister (id j : ConnectionId) :
    (s.unregister id).2.contains j = (s.contains j && j != id) := by
  cases there : s.contains id with
  | false =>
    rw [unregister_of_not_contains there]
    by_cases same : j = id
    · simp [same, there]
    · simp [same]
  | true =>
    rw [contains, ← Assoc.get?_isSome, Option.isSome_iff_exists] at there
    obtain ⟨entry, hget⟩ := there
    simp only [unregister, hget, contains]
    exact Assoc.contains_erase j

theorem contains_unregister_self (id : ConnectionId) : (s.unregister id).2.contains id = false := by
  simp [contains_unregister]

theorem contains_unregister_ne {id j : ConnectionId} (other : j ≠ id) :
    (s.unregister id).2.contains j = s.contains j := by
  simp [contains_unregister, other]

theorem unregister_nextId (id : ConnectionId) : (s.unregister id).2.nextId = s.nextId := by
  unfold unregister
  split <;> rfl

theorem Sound.unregister (h : s.Sound) (id : ConnectionId) : (s.unregister id).2.Sound := by
  cases there : s.contains id with
  | false => rwa [unregister_of_not_contains there]
  | true =>
    rw [h.unregister_eq there]
    have sub : (Assoc.erase s.entries id).Sublist s.entries := List.filter_sublist
    exact {
      subscribed := rfl
      ordered := rfl
      ascending := h.ascending.sublist (sub.map _)
      below := fun e he => h.below e (sub.subset he)
      subscriptions := h.subscriptions.sublist (sub.map _)
      subscriptionsBelow := fun e he => h.subscriptionsBelow e (sub.subset he)
      attached := rfl
      held := by
        intro attached
        have some_left : (Assoc.erase s.entries id).isEmpty = false := by simpa using attached
        have some_before : s.fanout.isAttached = true := by
          rw [h.attached, Bool.not_eq_true', List.isEmpty_eq_false_iff]
          exact fun none => by simp [none, Assoc.erase] at some_left
        simpa [some_left] using h.held some_before }

theorem Sound.failed (h : s.Sound) (refusal : Option String) {nextId : ConnectionId}
    (le : s.nextId ≤ nextId) : (s.failed refusal nextId).Sound :=
  { h.withSource rfl with
    below := fun e he => Nat.lt_of_lt_of_le (h.below e he) le }

theorem Sound.joined (h : s.Sound) {source : Source} (listens : s.fanout.Listens source)
    (session : β) : (s.joined source session).Sound where
  subscribed := by
    -- the number of the subscription is new, so it goes last
    have new : Assoc.contains s.fanout.subscribers s.fanout.nextId = false := by
      rw [Assoc.contains_eq_false_iff, h.subscribed, subscribersOf, List.map_map]
      intro taken
      obtain ⟨e, he, same⟩ := List.mem_map.mp taken
      exact Nat.ne_of_lt (h.subscriptionsBelow e he) same
    rw [Store.joined, Assoc.insert_of_not_contains new, h.subscribed]
    simp [subscribersOf]
  ordered := by simp [Store.joined, h.ordered]
  ascending := by
    rw [Store.joined, List.map_append]
    exact ascending_concat h.ascending (List.forall_mem_map.mpr h.below)
  below := by
    intro e he
    rcases List.mem_append.mp he with he | he
    · exact Nat.lt_succ_of_lt (h.below e he)
    · rw [List.mem_singleton.mp he]
      exact Nat.lt_succ_self _
  subscriptions := by
    rw [Store.joined, List.map_append]
    exact ascending_concat h.subscriptions (List.forall_mem_map.mpr h.subscriptionsBelow)
  subscriptionsBelow := by
    intro e he
    rcases List.mem_append.mp he with he | he
    · exact Nat.lt_succ_of_lt (h.subscriptionsBelow e he)
    · rw [List.mem_singleton.mp he]
      exact Nat.lt_succ_self _
  attached := by simp [Store.joined]
  held _ := listens.isAttached h.held

theorem contains_joined (source : Source) (session : β) (j : ConnectionId) :
    (s.joined source session).contains j = (s.contains j || s.nextId == j) := by
  simp [contains, Assoc.contains, Store.joined]

end Store

end HotReload
