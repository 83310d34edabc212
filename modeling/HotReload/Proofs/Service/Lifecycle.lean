import HotReload.Proofs.Service.Run

/-!
# The life of a connection

A client that is taken in has a session, a subscription and a worker, and it loses all three
together.  Once all that can run has run, the registered connections, the subscribers and the
workers that have not stopped are the same, but for a worker that waits for a build and whose client
is gone.  The service listens to its source exactly while a client is registered.

* `Store.Becomes`: what a step of the service can do to its registry.
* `Service.Run.regular`: what holds in every state of a run, and of the connections that are handed
  out, refused and taken out.
-/

namespace HotReload

/-! ### The registry -/

namespace Store

variable {β : Type} {s s' : Store ConnectionId β}

/-- What a step of the service can do to its registry. -/
inductive Becomes (s : Store ConnectionId β) : Store ConnectionId β → Prop where
  /-- Nobody is taken in or out. -/
  | aside {source : Source} {nextId : ConnectionId} (le : s.nextId ≤ nextId)
      (attached : source.isAttached = s.fanout.source.isAttached)
      (attaches : source.attaches = s.fanout.source.attaches)
      (detaches : source.detaches = s.fanout.source.detaches) :
      Becomes s { s with fanout := { s.fanout with source }, nextId }
  | joined {source : Source} (listens : s.fanout.Listens source) (session : β) :
      Becomes s (s.joined source session)
  | parted {id : ConnectionId} (there : s.contains id = true) : Becomes s (s.unregister id).2

namespace Becomes

theorem still : s.Becomes s := .aside (Nat.le_refl _) rfl rfl rfl

/-- Numbers are not given back. -/
theorem nextId_le (h : s.Becomes s') : s.nextId ≤ s'.nextId := by
  cases h with
  | aside le => exact le
  | joined => exact Nat.le_succ _
  | parted => exact Nat.le_of_eq (unregister_nextId _).symm

/-- Only the next number can be registered. -/
theorem contains (h : s.Becomes s') {id : ConnectionId} (there : s'.contains id = true) :
    s.contains id = true ∨ id = s.nextId := by
  cases h with
  | aside => exact .inl there
  | @joined source _ session =>
    rw [contains_joined source session id, Bool.or_eq_true, beq_iff_eq] at there
    exact there.imp_right Eq.symm
  | parted =>
    rw [contains_unregister, Bool.and_eq_true] at there
    exact .inl there.1

/-- The listeners of the source are counted. -/
theorem counted (h : s.Becomes s') (sound : s.Sound) (counted : s.fanout.source.Counted) :
    s'.fanout.source.Counted := by
  cases h with
  | aside _ attached attaches detaches =>
    unfold Source.Counted at counted ⊢
    simp only [attached, attaches, detaches]
    exact counted
  | joined listens => exact listens.counted counted
  | parted there =>
    rw [sound.unregister_eq there]
    simp only
    split
    · exact counted.detach
    · exact counted

/-- A source that lets its listener go when it is told so has one where the fan-out says so. -/
theorem level (h : s.Becomes s') (sound : s.Sound)
    (kept : s.fanout.source.isSticky = true → s'.fanout.source.isSticky = true)
    (level : s.fanout.source.isAttached = s.fanout.isAttached) :
    s'.fanout.source.isAttached = s'.fanout.isAttached := by
  cases h with
  | aside _ attached => exact attached.trans level
  | joined listens => exact listens.isAttached sound.held
  | @parted id there =>
    have attached := sound.isAttached_of_contains there
    rw [sound.unregister_eq there] at kept ⊢
    cases empty : (Assoc.erase s.entries id).isEmpty with
    | false => simp [level, attached]
    | true =>
      -- with the last session the source is told to let go, and only one that clings does not
      simp only [empty, if_true] at kept ⊢
      rcases Source.detach_cases (level.trans attached) with ⟨sticky, h⟩ | ⟨-, h⟩
      · rw [h] at kept
        cases kept sticky
      · rw [h]
        rfl

end Becomes

end Store

namespace Service

variable {σ : Type} {r : Resolver σ} {s s' : Service} {st st' : σ} {notes log : List Note}

/-! ### Steps -/

theorem Step.becomes (h : Step r s st notes s' st') : s.store.Becomes s'.store := by
  cases h with
  | enrol platform entry sink seed =>
    rcases s.enrol_cases platform entry sink seed with
      ⟨fault, refusal, nextId, le, he⟩ | ⟨graph, source, -, listens, he⟩
    · rw [he]
      exact .aside le rfl rfl rfl
    · rw [he]
      exact .joined listens ()
  | start id => exact .still
  | disconnect id =>
    rw [disconnect_store]
    cases there : s.store.contains id with
    | false =>
      rw [Store.unregister_of_not_contains there]
      exact .still
    | true => exact .parted there
  | close id => exact .still
  | closeAfter id n => exact .still
  | emit change =>
    unfold Service.emit
    split
    · exact .still
    · rw [tellAll_hand_store]
      exact .still
  | @work id w w' deeds _ here does =>
    rw [worked_eq]
    split
    · next told => exact .parted (Bool.and_eq_true_iff.mp told).2
    · exact .still
  | refuse reason => exact .aside (Nat.le_refl _) rfl rfl rfl
  | cling => exact .aside (Nat.le_refl _) rfl rfl rfl
  | edit => exact .still

theorem clung_mem_clings (h : s.store.fanout.source.isSticky = true)
    (h' : s'.store.fanout.source.isSticky = false) : .clung ∈ s.clings s' := by
  simp [clings, h, h']

/-- A source that stops to cling has clung. -/
theorem Step.isSticky (h : Step r s st notes s' st') (quiet : .clung ∉ notes)
    (sticky : s.store.fanout.source.isSticky = true) :
    s'.store.fanout.source.isSticky = true := by
  -- only a source that is told to let go can stop to cling, and then this is noted
  cases h with
  | enrol platform entry sink seed =>
    rcases s.enrol_cases platform entry sink seed with
      ⟨fault, refusal, nextId, -, he⟩ | ⟨graph, source, -, listens, he⟩
    · rw [he]
      exact sticky
    · rw [he]
      exact listens.isSticky.trans sticky
  | start id => exact sticky
  | disconnect id =>
    by_contra loose
    exact quiet (clung_mem_clings sticky (Bool.not_eq_true _ ▸ loose))
  | close id => exact sticky
  | closeAfter id n => exact sticky
  | emit change =>
    unfold Service.emit
    split
    · exact sticky
    · rw [tellAll_hand_store]
      exact sticky
  | @work id w w' deeds _ here does =>
    by_contra loose
    exact quiet (List.mem_append_right _
      (clung_mem_clings sticky (Bool.not_eq_true _ ▸ loose)))
  | refuse reason => exact sticky
  | cling => rfl
  | edit => exact sticky

/-- The connections that were handed out. -/
def handedOut (log : List Note) : List ConnectionId := log.filterMap Note.number?

/-- Each connection that is handed out gets a worker, in this order. -/
theorem Step.keys (h : Step r s st notes s' st') :
    s'.workers.map (·.1) = s.workers.map (·.1) ++ handedOut notes := by
  have clings : ∀ s₁ s₂ : Service, handedOut (s₁.clings s₂) = [] := by
    intro s₁ s₂
    unfold Service.clings
    split <;> rfl
  cases h with
  | enrol platform entry sink seed =>
    rcases s.enrol_cases platform entry sink seed with
      ⟨fault, refusal, nextId, -, he⟩ | ⟨graph, source, -, -, he⟩
    · rw [he]
      exact (List.append_nil _).symm
    · rw [he]
      simp [admitted, handedOut, Except.toOption, Note.number?]
  | start id => exact (onWorker_keys s id _).trans (List.append_nil _).symm
  | disconnect id =>
    rw [clings, List.append_nil]
    cases there : s.store.contains id with
    | false => rw [disconnect_of_not_contains there]
    | true =>
      rw [disconnect_of_contains there]
      exact onWorker_keys _ id _
  | close id => exact (onWorker_keys s id _).trans (List.append_nil _).symm
  | closeAfter id n => exact (onWorker_keys s id _).trans (List.append_nil _).symm
  | emit change =>
    have quiet : handedOut (s.offers change) = [] := by simp [handedOut, offers, Note.number?]
    rw [quiet, List.append_nil]
    unfold Service.emit
    split
    · rfl
    · exact tellAll_hand_keys change _ s
  | @work id w w' deeds _ here does =>
    have quiet : handedOut (deeds.map (.did id) ++ s.clings (s.worked id w')) = [] := by
      rw [handedOut, List.filterMap_append, ← handedOut, ← handedOut, clings]
      simp [handedOut, Note.number?]
    rw [quiet, List.append_nil, worked_eq]
    split <;> exact onWorker_keys _ id _
  | refuse reason => exact (List.append_nil _).symm
  | cling => exact (List.append_nil _).symm
  | edit => exact (List.append_nil _).symm

/-- Taking a client in that cannot be served leaves all as it is, but for the next number and the
refusal that the source used up. -/
theorem connect_error {platform : String} {entry : Path} {sink : Sink} {fault : UpdateFault}
    (refused : (s.connect r platform entry sink st).1 = .error fault) :
    ∃ refusal nextId, s.store.nextId ≤ nextId ∧
      (s.connect r platform entry sink st).2.1 =
        { s with store := s.store.failed refusal nextId } := by
  rcases s.connect_cases r platform entry sink st with
    ⟨fault, refusal, nextId, le, he⟩ | ⟨graph, source, -, he⟩
  · rw [he]
    exact ⟨refusal, nextId, le, rfl⟩
  · rw [he] at refused
    cases refused

/-! ### Rest -/

/-- All that can run has run. -/
structure Rests (r : Resolver σ) (s : Service) (st : σ) : Prop where
  started : ∀ id w, s.worker? id = some w → w.isStarted = true
  still : ∀ id, s.step? r id st = none

theorem Rests.step? (h : Rests r s st) {id : ConnectionId} {w : Worker}
    (here : s.worker? id = some w) : w.step? r st = none := by
  have still := h.still id
  rw [Service.step?, here] at still
  cases next : w.step? r st with
  | none => rfl
  | some next => simp [next] at still

/-! ### Runs -/

theorem Run.nextId_le (run : Run r s st log s' st') : s.store.nextId ≤ s'.store.nextId := by
  induction run with
  | start => exact Nat.le_refl _
  | step _ h ih => exact Nat.le_trans ih h.becomes.nextId_le

/-- A connection that is not registered any more is never registered again. -/
theorem Run.gone (run : Run r s st log s' st') {id : ConnectionId} (old : id < s.store.nextId)
    (gone : s.store.contains id = false) : s'.store.contains id = false := by
  induction run with
  | start => exact gone
  | step t h ih =>
    rw [← Bool.not_eq_true] at ih ⊢
    intro there
    rcases h.becomes.contains there with back | new
    · exact ih back
    · rw [new] at old
      exact absurd old (Nat.not_lt.mpr t.nextId_le)

theorem Run.counted (run : Run r s st log s' st') (sound : s.Sound)
    (counted : s.store.fanout.source.Counted) : s'.store.fanout.source.Counted := by
  induction run with
  | start => exact counted
  | step t h ih => exact h.becomes.counted (t.sound sound).store ih

theorem Run.level (run : Run r s st log s' st') (sound : s.Sound) (quiet : .clung ∉ log)
    (level : s.store.fanout.source.isAttached = s.store.fanout.isAttached) :
    s'.store.fanout.source.isAttached = s'.store.fanout.isAttached := by
  induction run with
  | start => exact level
  | step t h ih =>
    rw [List.mem_append, not_or] at quiet
    exact h.becomes.level (t.sound sound).store (h.isSticky quiet.2) (ih quiet.1)

theorem Run.keys (run : Run r s st log s' st') :
    s'.workers.map (·.1) = s.workers.map (·.1) ++ handedOut log := by
  induction run with
  | start => exact (List.append_nil _).symm
  | step t h ih => rw [h.keys, ih, handedOut, handedOut, handedOut, List.filterMap_append,
      List.append_assoc]

/-- What holds of the clients of a service in a state that it has come to. -/
structure Regular (r : Resolver σ) (log : List Note) (s : Service) (st : σ) : Prop where
  /-- Each registered connection has one subscription, and there are no others. -/
  subscribed : s.store.fanout.subscribers.map (·.2) = s.store.ids
  nodup : s.store.ids.Nodup
  /-- A registered connection has a worker that has not stopped. -/
  served : ∀ id ∈ s.store.ids, ∃ w, s.worker? id = some w ∧ w.exit = none
  /-- Once all that can run has run, a worker that has not stopped is one of a registered
  connection, or it waits for a build. -/
  going : Rests r s st → ∀ id w, s.worker? id = some w → w.exit = none →
    id ∈ s.store.ids ∨ w.AwaitsBuild r st
  /-- The service listens exactly while a connection is registered. -/
  listening : s.status.listening = true ↔ s.store.ids ≠ []
  /-- While it listens, the source has its listener. -/
  held : s.status.listening = true → s.store.fanout.source.isAttached = true
  /-- Where the source let its listener go whenever it was told so, it has one exactly while a
  connection is registered. -/
  level : .clung ∉ log →
    (s.store.fanout.source.isAttached = true ↔ s.store.ids ≠ []) ∧
      s.store.fanout.source.attaches =
        s.store.fanout.source.detaches + if s.store.ids = [] then 0 else 1
  /-- Each connection that is handed out has a larger number than all before it. -/
  numbered : (handedOut log).Pairwise (· < ·)
  /-- Only connections that were handed out are registered. -/
  known : ∀ id ∈ s.store.ids, id ∈ handedOut log
  /-- A client that cannot be connected changes nothing but the next number and the refusal that the
  source used up. -/
  refused : ∀ platform entry sink st' fault,
    (s.connect r platform entry sink st').1 = .error fault →
    ∃ refusal nextId, s.store.nextId ≤ nextId ∧
      (s.connect r platform entry sink st').2.1 = { s with store := s.store.failed refusal nextId }
  /-- To take out a connection that is not there changes nothing. -/
  absent : ∀ id ∉ s.store.ids, s.disconnect id = (false, s)
  /-- A connection that was taken out is gone for good. -/
  gone : ∀ id ∈ s.store.ids, (s.disconnect id).1 = true ∧
    ∀ log' s' st', Run r (s.disconnect id).2 st log' s' st' → s'.disconnect id = (false, s')

/-- **Sessions, subscriptions and workers come and go together**, from the first state of a service
on, whatever clients, files and the source of changes do, and in whatever order the workers go
on. -/
theorem Run.regular {endpoint : Endpoint} {st₀ : σ} (run : Run r { endpoint } st₀ log s st) :
    Regular r log s st := by
  have sound := run.sound (.new endpoint)
  have keys : s.workers.map (·.1) = handedOut log := run.keys
  have listening : s.status.listening = true ↔ s.store.ids ≠ [] := by
    rw [show s.status.listening = s.store.fanout.isAttached from rfl, sound.store.attached,
      Store.ids]
    simp
  refine ⟨sound.store.subscribers_eq, sound.store.nodup, fun id there => ?_,
    fun rests id w here going => ?_, listening, sound.store.held, fun quiet => ?_, ?_,
    fun id there => ?_, fun _ _ _ _ _ => connect_error, fun id absent => ?_,
    fun id there => ⟨?_, fun log' s' st' more => ?_⟩⟩
  · exact sound.served id (Store.mem_ids.mp there)
  · rcases Worker.waits_for ⟨rests.started id w here, going⟩ (rests.step? here) with
      held | ⟨-, -, fed⟩
    · exact .inr held
    · exact .inl (Store.mem_ids.mpr ((sound.fed id w here).symm.trans fed))
  · have level := run.level (.new endpoint) quiet rfl
    have counted : s.store.fanout.source.Counted := run.counted (.new endpoint) rfl
    unfold Source.Counted at counted
    have attached : s.store.fanout.source.isAttached = true ↔ s.store.ids ≠ [] := by
      rw [level]
      exact listening
    refine ⟨attached, ?_⟩
    by_cases empty : s.store.ids = []
    · have bare : s.store.fanout.source.isAttached = false := by
        rw [← Bool.not_eq_true, attached]
        exact not_not.mpr empty
      rw [if_pos empty, counted, bare]
      rfl
    · rw [if_neg empty, counted, attached.mpr empty]
      rfl
  · rw [← keys]
    exact sound.ascending
  · obtain ⟨w, here, -⟩ := sound.served id (Store.mem_ids.mp there)
    rw [← keys]
    exact List.mem_map_of_mem (Assoc.mem_of_get?_eq here)
  · exact disconnect_of_not_contains
      (Bool.not_eq_true _ ▸ fun there => absent (Store.mem_ids.mpr there))
  · rw [disconnect_of_contains (Store.mem_ids.mp there)]
  · have old : id < (s.disconnect id).2.store.nextId := by
      obtain ⟨w, here, -⟩ := sound.served id (Store.mem_ids.mp there)
      rw [disconnect_store, Store.unregister_nextId]
      exact sound.lt_nextId here
    have gone : (s.disconnect id).2.store.contains id = false := by
      rw [disconnect_store]
      exact Store.contains_unregister_self id
    exact disconnect_of_not_contains (more.gone old gone)

end Service

namespace Sample

/-- The client is registered and served, and nobody else is. -/
theorem online_regular :
    online.1.store.ids = [1] ∧
      Service.Regular Tree.resolver ([.numbered 1] ++ [.offered 1 edit]) online.1 online.2 :=
  ⟨by decide +kernel, online_run.regular⟩

end Sample

end HotReload
