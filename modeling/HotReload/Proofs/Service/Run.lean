import HotReload.Proofs.Service.Registry
import HotReload.Proofs.Session.Worker
import HotReload.Service.Basic

/-!
# Runs of a service

Clients come and go, the source reports changes, workers take steps and the files change, in any
order.  `Service.Step` lists what can happen, with what can be seen of it (`Note`); `Service.Run` is
any number of steps, with the log of all that was seen.  A client is taken in and its worker is
started in two steps, so that changes can be reported in between.  The resolver is any resolver,
and its state can change in any way between two steps.

* `Service.step?_iff`: a step of `Service.step?` is a step of one worker, and the service hears what
  the worker tells.
* `Service.Goes`: workers go on, in any order; `Service.goes_settle`: a service that settles does so.
* `Service.Run.sound`: what holds in every state of a run.
* `Service.Run.connect`, `Service.Run.emit`, `Service.Run.settle`: what a service does is a run.
-/

namespace HotReload

namespace Service

/-! ### Workers -/

@[simp] theorem worker?_onWorker_self (s : Service) (id : ConnectionId) (f : Worker → Worker) :
    (s.onWorker id f).worker? id = (s.worker? id).map f :=
  Assoc.get?_modify_self f

theorem worker?_onWorker_ne (s : Service) {id j : ConnectionId} (f : Worker → Worker)
    (other : j ≠ id) : (s.onWorker id f).worker? j = s.worker? j :=
  Assoc.get?_modify_ne f other

theorem onWorker_keys (s : Service) (id : ConnectionId) (f : Worker → Worker) :
    (s.onWorker id f).workers.map (·.1) = s.workers.map (·.1) :=
  Assoc.keys_modify f

/-! ### Taking in and taking out -/

/-- The worker of a client that is taken in. -/
def newcomer (s : Service) (platform : String) (entry : Path) (sink : Sink) (graph : Graph) :
    Worker :=
  { connection :=
      { session := { connection := s.store.nextId, platform, entry, graph }
        endpoint := s.endpoint
        sink } }

/-- The service with one more client. -/
def admitted (s : Service) (source : Source) (w : Worker) : Service :=
  { s with
    store := s.store.joined source ()
    workers := s.workers ++ [(s.store.nextId, w)] }

/-- **Taking a client in** registers it with a new worker, or leaves the workers as they are. -/
theorem enrol_cases (s : Service) (platform : String) (entry : Path) (sink : Sink)
    (seed : Except ResolveFault Graph) :
    (∃ fault refusal nextId, s.store.nextId ≤ nextId ∧
      s.enrol platform entry sink seed =
        (.error fault, { s with store := s.store.failed refusal nextId })) ∨
    ∃ graph source, seed = .ok graph ∧ s.store.fanout.Listens source ∧
      s.enrol platform entry sink seed =
        (.ok s.store.nextId, s.admitted source (s.newcomer platform entry sink graph)) := by
  unfold enrol
  rcases s.store.register_cases seed fun _ _ => () with
    ⟨fault, refusal, nextId, le, h⟩ | ⟨graph, source, rfl, listens, h⟩
  · rw [h]
    exact .inl ⟨fault, refusal, nextId, le, rfl⟩
  · rw [h]
    exact .inr ⟨graph, source, rfl, listens, rfl⟩

/-- Where the source refuses nobody, a client is taken in with its graph. -/
theorem enrol_of_welcome {s : Service} (welcome : s.store.fanout.source.refusal = none)
    (platform : String) (entry : Path) (sink : Sink) (graph : Graph) :
    ∃ source, s.store.fanout.Listens source ∧
      s.enrol platform entry sink (.ok graph) =
        (.ok s.store.nextId, s.admitted source (s.newcomer platform entry sink graph)) := by
  obtain ⟨source, listens, h⟩ := Store.register_of_welcome welcome graph fun _ _ => ()
  refine ⟨source, listens, ?_⟩
  unfold enrol
  rw [h]
  rfl

/-- **Connecting a client** takes it in and starts its worker, or leaves the workers as they are. -/
theorem connect_cases {σ : Type} (r : Resolver σ) (s : Service) (platform : String) (entry : Path)
    (sink : Sink) (st : σ) :
    (∃ fault refusal nextId, s.store.nextId ≤ nextId ∧
      s.connect r platform entry sink st =
        (.error fault, { s with store := s.store.failed refusal nextId },
          (Search.discover r platform entry st).2)) ∨
    ∃ graph source, s.store.fanout.Listens source ∧
      s.connect r platform entry sink st =
        (.ok s.store.nextId,
          (s.admitted source (s.newcomer platform entry sink graph)).start s.store.nextId,
          (Search.discover r platform entry st).2) := by
  unfold connect
  rcases s.enrol_cases platform entry sink (Search.discover r platform entry st).1 with
    ⟨fault, refusal, nextId, le, he⟩ | ⟨graph, source, -, listens, he⟩
  · exact .inl ⟨fault, refusal, nextId, le, by simp only [he]⟩
  · exact .inr ⟨graph, source, listens, by simp only [he]⟩

theorem disconnect_of_not_contains {s : Service} {id : ConnectionId}
    (gone : s.store.contains id = false) : s.disconnect id = (false, s) := by
  rw [disconnect, Store.unregister_of_not_contains gone]

theorem disconnect_of_contains {s : Service} {id : ConnectionId}
    (there : s.store.contains id = true) :
    s.disconnect id =
      (true, { s with store := (s.store.unregister id).2 }.onWorker id Worker.part) := by
  rw [Store.contains, ← Assoc.get?_isSome, Option.isSome_iff_exists] at there
  obtain ⟨entry, hget⟩ := there
  simp only [disconnect, Store.unregister, hget]

@[simp] theorem disconnect_store (s : Service) (id : ConnectionId) :
    (s.disconnect id).2.store = (s.store.unregister id).2 := by
  cases there : s.store.contains id with
  | false => rw [disconnect_of_not_contains there, Store.unregister_of_not_contains there]
  | true =>
    rw [disconnect_of_contains there]
    rfl

theorem worker?_disconnect_self {s : Service} {id : ConnectionId}
    (there : s.store.contains id = true) :
    (s.disconnect id).2.worker? id = (s.worker? id).map Worker.part := by
  rw [disconnect_of_contains there]
  exact worker?_onWorker_self _ id _

theorem worker?_disconnect_ne (s : Service) {id j : ConnectionId} (other : j ≠ id) :
    (s.disconnect id).2.worker? j = s.worker? j := by
  cases there : s.store.contains id with
  | false => rw [disconnect_of_not_contains there]
  | true =>
    rw [disconnect_of_contains there]
    exact worker?_onWorker_ne _ _ other

/-! ### Reporting a change -/

@[simp] theorem tellAll_hand_store (change : Change) (ids : List ConnectionId) (s : Service) :
    (tellAll (hand change) ids s).store = s.store := by
  induction ids generalizing s with
  | nil => rfl
  | cons id ids ih => exact ih (hand change id s)

theorem tellAll_hand_keys (change : Change) (ids : List ConnectionId) (s : Service) :
    (tellAll (hand change) ids s).workers.map (·.1) = s.workers.map (·.1) := by
  induction ids generalizing s with
  | nil => rfl
  | cons id ids ih => exact (ih (hand change id s)).trans (onWorker_keys s id _)

/-- **Who is handed a change**: each recipient, once. -/
theorem worker?_tellAll_hand (change : Change) {ids : List ConnectionId} (distinct : ids.Nodup)
    (s : Service) (j : ConnectionId) :
    (tellAll (hand change) ids s).worker? j =
      if j ∈ ids then (s.worker? j).map fun w => (w.enqueue change).1 else s.worker? j := by
  induction ids generalizing s with
  | nil => rfl
  | cons id ids ih =>
    obtain ⟨fresh, distinct⟩ := List.nodup_cons.mp distinct
    have first : tellAll (hand change) (id :: ids) s =
        tellAll (hand change) ids (hand change id s) := rfl
    rw [first, ih distinct]
    by_cases same : j = id
    · subst same
      rw [if_neg fresh, if_pos List.mem_cons_self, hand, worker?_onWorker_self]
    · rw [hand, worker?_onWorker_ne _ _ same]
      simp only [List.mem_cons, same, false_or]

/-! ### Soundness -/

/-- What holds in every state of a service: the registry is sound, and the registered connections
are those whose workers can be handed changes. -/
structure Sound (s : Service) : Prop where
  store : s.store.Sound
  ascending : (s.workers.map (·.1)).Pairwise (· < ·)
  below : ∀ e ∈ s.workers, e.1 < s.store.nextId
  served : ∀ id, s.store.contains id = true → ∃ w, s.worker? id = some w ∧ w.exit = none
  fed : ∀ id w, s.worker? id = some w → w.isFed = s.store.contains id

theorem Sound.new (endpoint : Endpoint) : ({ endpoint } : Service).Sound where
  store := .empty
  ascending := .nil
  below _ h := absurd h List.not_mem_nil
  served _ h := by cases h
  fed _ _ h := by cases h

variable {s : Service}

/-- The number of the next connection is new. -/
theorem Sound.unused (h : s.Sound) {id : ConnectionId} (new : s.store.nextId ≤ id) :
    Assoc.contains s.workers id = false ∧ s.store.contains id = false := by
  constructor
  · rw [Assoc.contains_eq_false_iff]
    intro hmem
    obtain ⟨e, he, rfl⟩ := List.mem_map.mp hmem
    exact absurd (h.below e he) (Nat.not_lt.mpr new)
  · rw [Store.contains, Assoc.contains_eq_false_iff]
    intro hmem
    obtain ⟨e, he, rfl⟩ := List.mem_map.mp hmem
    exact absurd (h.store.below e he) (Nat.not_lt.mpr new)

theorem Sound.lt_nextId (h : s.Sound) {id : ConnectionId} {w : Worker}
    (here : s.worker? id = some w) : id < s.store.nextId :=
  h.below _ (Assoc.mem_of_get?_eq here)

/-- A change of one worker and of its registration. -/
theorem Sound.update (h : s.Sound) {store : Store ConnectionId Unit} {id : ConnectionId}
    {f : Worker → Worker} (sound : store.Sound) (numbered : store.nextId = s.store.nextId)
    (others : ∀ j, j ≠ id → store.contains j = s.store.contains j)
    (registered : store.contains id = true → s.store.contains id = true)
    (fed : ∀ w, s.worker? id = some w → (f w).isFed = store.contains id)
    (going : ∀ w, s.worker? id = some w → store.contains id = true → (f w).exit = none) :
    ({ s with store }.onWorker id f).Sound where
  store := sound
  ascending := by
    rw [onWorker_keys]
    exact h.ascending
  below e he := by
    have hmem : e.1 ∈ (Assoc.modify s.workers id f).map (·.1) := List.mem_map_of_mem he
    rw [Assoc.keys_modify] at hmem
    obtain ⟨e', he', same⟩ := List.mem_map.mp hmem
    show e.1 < store.nextId
    rw [numbered, ← same]
    exact h.below e' he'
  served j there := by
    -- the worker of the connection is another one, and the others are as they were
    by_cases same : j = id
    · subst same
      obtain ⟨w, here, -⟩ := h.served j (registered there)
      refine ⟨f w, ?_, going w here there⟩
      rw [worker?_onWorker_self]
      exact congrArg (Option.map f) here
    · obtain ⟨w, here, exit⟩ := h.served j ((others j same).symm.trans there)
      exact ⟨w, (worker?_onWorker_ne _ f same).trans here, exit⟩
  fed j w here := by
    by_cases same : j = id
    · subst same
      rw [worker?_onWorker_self] at here
      obtain ⟨w', here', rfl⟩ := Option.map_eq_some_iff.mp here
      exact fed w' here'
    · rw [worker?_onWorker_ne _ f same] at here
      exact (h.fed j w here).trans (others j same).symm

/-- A change of one worker alone. -/
theorem Sound.onWorker (h : s.Sound) {id : ConnectionId} {f : Worker → Worker}
    (fed : ∀ w, s.worker? id = some w → (f w).isFed = w.isFed)
    (going : ∀ w, s.worker? id = some w → w.isFed = true → w.exit = none → (f w).exit = none) :
    (s.onWorker id f).Sound := by
  refine h.update h.store rfl (fun _ _ => rfl) (fun there => there)
    (fun w here => (fed w here).trans (h.fed id w here)) fun w here there => ?_
  obtain ⟨w', here', exit⟩ := h.served id there
  rw [here] at here'
  cases here'
  exact going w here ((h.fed id w here).trans there) exit

theorem Sound.start (h : s.Sound) (id : ConnectionId) : (s.start id).Sound :=
  h.onWorker (fun _ _ => rfl) fun _ _ _ going => going

theorem Sound.onSink (h : s.Sound) (id : ConnectionId) (f : Sink → Sink) : (s.onSink id f).Sound :=
  h.onWorker (fun _ _ => rfl) fun _ _ _ going => going

/-- A session is taken out, and its worker can be handed no more changes. -/
theorem Sound.parted (h : s.Sound) {id : ConnectionId} {f : Worker → Worker}
    (unfed : ∀ w, (f w).isFed = false) :
    ({ s with store := (s.store.unregister id).2 }.onWorker id f).Sound := by
  have gone := Store.contains_unregister_self (s := s.store) id
  refine h.update (h.store.unregister id) (Store.unregister_nextId id)
    (fun _ => Store.contains_unregister_ne) (fun back => ?_) (fun w _ => (unfed w).trans gone.symm)
    (fun _ _ back => ?_)
  · rw [gone] at back
    cases back
  · rw [gone] at back
    cases back

theorem Sound.disconnect (h : s.Sound) (id : ConnectionId) : (s.disconnect id).2.Sound := by
  cases there : s.store.contains id with
  | false => rwa [disconnect_of_not_contains there]
  | true =>
    rw [disconnect_of_contains there]
    exact h.parted fun _ => rfl

/-- A change of the source that leaves its listener in place. -/
theorem Sound.withSource (h : s.Sound) {source : Source}
    (same : source.isAttached = s.store.fanout.source.isAttached) : (s.withSource source).Sound :=
  { h with store := h.store.withSource same }

theorem worker?_admitted_ne (s : Service) (source : Source) (w : Worker) {id : ConnectionId}
    (other : id ≠ s.store.nextId) : (s.admitted source w).worker? id = s.worker? id :=
  Assoc.get?_append_ne other

theorem Sound.worker?_admitted_self (h : s.Sound) (source : Source) (w : Worker) :
    (s.admitted source w).worker? s.store.nextId = some w :=
  Assoc.get?_append_self (h.unused (Nat.le_refl s.store.nextId)).1

/-- One more client, with a worker that has not stopped. -/
theorem Sound.admitted (h : s.Sound) {source : Source} (listens : s.store.fanout.Listens source)
    {w : Worker} (fed : w.isFed = true) (going : w.exit = none) : (s.admitted source w).Sound where
  store := h.store.joined listens ()
  ascending := by
    rw [Service.admitted, List.map_append]
    exact ascending_concat h.ascending (List.forall_mem_map.mpr h.below)
  below e mem := by
    rcases List.mem_append.mp mem with mem | mem
    · exact Nat.lt_succ_of_lt (h.below e mem)
    · rw [List.mem_singleton.mp mem]
      exact Nat.lt_succ_self _
  served j there := by
    by_cases same : j = s.store.nextId
    · exact ⟨w, same ▸ h.worker?_admitted_self source w, going⟩
    · rw [Service.admitted, Store.contains_joined, beq_false_of_ne (Ne.symm same),
        Bool.or_false] at there
      rw [worker?_admitted_ne s source w same]
      exact h.served j there
  fed j v here := by
    rw [Service.admitted, Store.contains_joined]
    by_cases same : j = s.store.nextId
    · subst same
      rw [h.worker?_admitted_self, Option.some.injEq] at here
      subst here
      simp [fed]
    · rw [worker?_admitted_ne s source w same] at here
      rw [beq_false_of_ne (Ne.symm same), Bool.or_false]
      exact h.fed j v here

theorem worker?_enrol_ne (s : Service) (platform : String) (entry : Path) (sink : Sink)
    (seed : Except ResolveFault Graph) {id : ConnectionId} (other : id ≠ s.store.nextId) :
    (s.enrol platform entry sink seed).2.worker? id = s.worker? id := by
  rcases s.enrol_cases platform entry sink seed with
    ⟨fault, refusal, nextId, -, he⟩ | ⟨graph, source, -, -, he⟩
  · rw [he]
    rfl
  · rw [he]
    exact s.worker?_admitted_ne source _ other

/-- The next connection has a new worker, where a client is taken in. -/
theorem Sound.worker?_enrol_new (h : s.Sound) (platform : String) (entry : Path) (sink : Sink)
    (seed : Except ResolveFault Graph) {w : Worker}
    (here : (s.enrol platform entry sink seed).2.worker? s.store.nextId = some w) :
    ∃ graph, w = s.newcomer platform entry sink graph := by
  rcases s.enrol_cases platform entry sink seed with
    ⟨fault, refusal, nextId, -, he⟩ | ⟨graph, source, -, -, he⟩
  · rw [he] at here
    exact absurd (h.lt_nextId here) (Nat.lt_irrefl _)
  · rw [he] at here
    exact ⟨graph, Option.some.inj (here.symm.trans (h.worker?_admitted_self source _))⟩

theorem Sound.enrol (h : s.Sound) (platform : String) (entry : Path) (sink : Sink)
    (seed : Except ResolveFault Graph) : (s.enrol platform entry sink seed).2.Sound := by
  rcases s.enrol_cases platform entry sink seed with
    ⟨fault, refusal, nextId, le, he⟩ | ⟨graph, source, -, listens, he⟩
  · rw [he]
    exact { h with
      store := h.store.failed refusal le
      below := fun e hmem => Nat.lt_of_lt_of_le (h.below e hmem) le }
  · rw [he]
    exact h.admitted listens rfl rfl

theorem Sound.hand (h : s.Sound) (change : Change) (id : ConnectionId) :
    (hand change id s).Sound := by
  refine h.onWorker (fun w _ => ?_) fun w _ _ going => ?_
  · unfold Worker.enqueue
    split <;> rfl
  · unfold Worker.enqueue
    split <;> exact going

theorem Sound.tellAll (change : Change) (ids : List ConnectionId) :
    ∀ {s : Service}, s.Sound → (tellAll (Service.hand change) ids s).Sound := by
  induction ids with
  | nil => exact fun h => h
  | cons id ids ih => exact fun h => ih (h.hand change id)

theorem Sound.emit (h : s.Sound) (change : Change) : (s.emit change).2.Sound := by
  unfold Service.emit
  split
  · exact h
  · exact h.tellAll change _

/-- **Who is handed a change that the source reports**: the registered connections. -/
theorem Sound.worker?_emit (h : s.Sound) (change : Change) (id : ConnectionId) :
    (s.emit change).2.worker? id =
      if s.store.contains id then (s.worker? id).map fun w => (w.enqueue change).1
      else s.worker? id := by
  unfold Service.emit
  cases there : s.store.contains id with
  | true =>
    rw [h.store.recipients?_of_contains there]
    simp only [worker?_tellAll_hand change h.store.nodup, Store.mem_ids, there]
  | false =>
    have absent : id ∉ s.store.ids := by
      rw [Store.mem_ids, there]
      exact Bool.false_ne_true
    split
    · rfl
    · next ids recipients =>
      have distinct : ids.Nodup ∧ id ∉ ids := by
        rw [Fanout.recipients?, h.store.recipients] at recipients
        split at recipients
        · rw [← Option.some.inj recipients]
          exact ⟨h.store.nodup, absent⟩
        · cases recipients
      simp only [worker?_tellAll_hand change distinct.1, if_neg distinct.2]
      rfl

/-! ### Steps of a worker in a service -/

/-- The service after a step of a worker: it hears what the worker tells. -/
def worked (s : Service) (id : ConnectionId) (w : Worker) : Service :=
  w.farewell?.elim (s.onWorker id fun _ => w) ((s.onWorker id fun _ => w).onFarewell id)

/-- **A worker that tells why it stopped is taken out** with its session. -/
theorem worked_eq (s : Service) (id : ConnectionId) (w : Worker) :
    s.worked id w =
      if w.farewell?.isSome && s.store.contains id then
        { s with store := (s.store.unregister id).2 }.onWorker id fun _ => w.part
      else s.onWorker id fun _ => w := by
  unfold worked
  cases w.farewell? with
  | none => rfl
  | some exit =>
    simp only [Option.elim_some, onFarewell, Option.isSome_some, Bool.true_and]
    cases there : s.store.contains id with
    | true =>
      have there' : (s.onWorker id fun _ => w).store.contains id = true := there
      have together := Assoc.modify_modify (m := s.workers) (k := id) (fun _ => w) Worker.part
      rw [disconnect_of_contains there', if_pos rfl]
      exact congrArg
        (fun workers => ({ s with store := (s.store.unregister id).2, workers } : Service)) together
    | false =>
      have gone : (s.onWorker id fun _ => w).store.contains id = false := there
      rw [disconnect_of_not_contains gone]
      rfl

theorem worker?_worked_self {id : ConnectionId} {w : Worker} (here : s.worker? id = some w)
    (w' : Worker) :
    (s.worked id w').worker? id =
      some (if w'.farewell?.isSome && s.store.contains id then w'.part else w') := by
  rw [worked_eq]
  split
  · rw [worker?_onWorker_self]
    exact congrArg (Option.map _) here
  · rw [worker?_onWorker_self]
    exact congrArg (Option.map _) here

theorem worker?_worked_ne {id j : ConnectionId} (other : j ≠ id) (w' : Worker) :
    (s.worked id w').worker? j = s.worker? j := by
  rw [worked_eq]
  split <;> exact worker?_onWorker_ne _ _ other

/-- **A step of the service** is a step of one worker, and the service hears what it tells. -/
theorem step?_iff {σ : Type} {r : Resolver σ} {id : ConnectionId} {s' : Service} {st st' : σ} :
    s.step? r id st = some (s', st') ↔
      ∃ w deeds w', s.worker? id = some w ∧ w.Does r st deeds w' st' ∧ s' = s.worked id w' := by
  constructor
  · intro h
    unfold step? at h
    split at h
    · cases h
    · next w here =>
      split at h
      · cases h
      · next w' st₁ hs =>
        obtain ⟨deeds, does⟩ := Worker.step?_iff.mp hs
        obtain ⟨rfl, rfl⟩ := Prod.mk.inj (Option.some.inj h)
        exact ⟨w, deeds, w', here, does, rfl⟩
  · rintro ⟨w, deeds, w', here, does, rfl⟩
    simp only [step?, here, Worker.step?_iff.mpr ⟨deeds, does⟩]
    rfl

theorem Sound.worked {σ : Type} {r : Resolver σ} {id : ConnectionId} {w w' : Worker} {st st' : σ}
    {deeds : List Deed} (h : s.Sound) (here : s.worker? id = some w)
    (does : w.Does r st deeds w' st') : (s.worked id w').Sound := by
  have only : ∀ v, s.worker? id = some v → v = w := fun v hv =>
    Option.some.inj (hv.symm.trans here)
  rw [worked_eq]
  split
  · exact h.parted fun _ => rfl
  · next quiet =>
    refine h.onWorker (fun v hv => ?_) fun v hv fed _ => ?_
    · rw [only v hv]
      exact does.isFed
    · -- a worker that can be fed is registered, and it can neither run dry nor tell anything
      rw [only v hv] at fed
      have there : s.store.contains id = true := (h.fed id w here).symm.trans fed
      rw [there, Bool.and_true] at quiet
      cases hexit : w'.exit with
      | none => rfl
      | some exit =>
        cases exit with
        | drained =>
          have unfed := (does.drained hexit).1
          rw [does.isFed, fed] at unfed
          cases unfed
        | disconnected => simp [Worker.farewell?, hexit] at quiet
        | invalidated => simp [Worker.farewell?, hexit] at quiet

/-! ### Going on -/

section Going

variable {σ : Type} {r : Resolver σ} {s₁ s' : Service} {st st₁ st' : σ}

/-- Workers take steps, in any order. -/
inductive Goes (r : Resolver σ) : Service → σ → Service → σ → Prop where
  | refl (s : Service) (st : σ) : Goes r s st s st
  | step {s s₁ s' : Service} {st st₁ st' : σ} {id : ConnectionId}
      (h : s.step? r id st = some (s₁, st₁)) (t : Goes r s₁ st₁ s' st') : Goes r s st s' st'

theorem Goes.trans (h : Goes r s st s₁ st₁) (h' : Goes r s₁ st₁ s' st') : Goes r s st s' st' := by
  induction h with
  | refl => exact h'
  | step h _ ih => exact .step h (ih h')

theorem goes_run (r : Resolver σ) (id : ConnectionId) (fuel : Nat) (s : Service) (st : σ) :
    Goes r s st (s.run r id fuel st).1 (s.run r id fuel st).2 := by
  induction fuel generalizing s st with
  | zero => exact .refl s st
  | succ fuel ih =>
    unfold Service.run
    split
    · exact .refl s st
    · next s₁ st₁ h => exact .step h (ih s₁ st₁)

/-- Lets the workers of a list go on, one after the other. -/
def runAll (r : Resolver σ) (workers : List (ConnectionId × Worker)) (s : Service) (st : σ) :
    Service × σ :=
  workers.foldl (fun (s, st) (id, w) => s.run r id (w.stepBound (r.bound st)) st) (s, st)

theorem runAll_cons (r : Resolver σ) (e : ConnectionId × Worker)
    (workers : List (ConnectionId × Worker)) (s : Service) (st : σ) :
    runAll r (e :: workers) s st =
      let next := s.run r e.1 (e.2.stepBound (r.bound st)) st
      runAll r workers next.1 next.2 := rfl

theorem goes_runAll (r : Resolver σ) (workers : List (ConnectionId × Worker)) (s : Service)
    (st : σ) : Goes r s st (runAll r workers s st).1 (runAll r workers s st).2 := by
  induction workers generalizing s st with
  | nil => exact .refl s st
  | cons e workers ih =>
    rw [runAll_cons]
    exact (goes_run r e.1 _ s st).trans (ih _ _)

theorem settle_eq_runAll (r : Resolver σ) (s : Service) (st : σ) :
    s.settle r st = runAll r s.workers s st := rfl

/-- **To settle is to go on.** -/
theorem goes_settle (r : Resolver σ) (s : Service) (st : σ) :
    Goes r s st (s.settle r st).1 (s.settle r st).2 :=
  goes_runAll r s.workers s st

end Going

/-! ### Steps and runs -/

/-- What can be seen of a service. -/
inductive Note where
  /-- A client is given a connection. -/
  | numbered (id : ConnectionId)
  /-- The source delivers a change while the connection is subscribed. -/
  | offered (id : ConnectionId) (change : Change)
  | did (id : ConnectionId) (deed : Deed)
  /-- The source does not let its listener go. -/
  | clung

namespace Note

/-- The connection that a client is given. -/
def number? : Note → Option ConnectionId
  | .numbered id => some id
  | _ => none

/-- The change that the source delivers to a connection. -/
def offer? (id : ConnectionId) : Note → Option Change
  | .offered j change => if j = id then some change else none
  | _ => none

/-- What the worker of a connection does. -/
def deed? (id : ConnectionId) : Note → Option Deed
  | .did j deed => if j = id then some deed else none
  | _ => none

end Note

/-- What is seen of a change that the source reports: it is delivered to each recipient. -/
def offers (s : Service) (change : Change) : List Note :=
  (s.store.fanout.recipients?.getD []).map (.offered · change)

/-- Whether the source kept its listener on the way to another state. -/
def clings (s s' : Service) : List Note :=
  if s.store.fanout.source.isSticky && !s'.store.fanout.source.isSticky then [.clung] else []

/-- What can happen to a service. -/
inductive Step {σ : Type} (r : Resolver σ) (s : Service) (st : σ) :
    List Note → Service → σ → Prop where
  /-- The discovery for a client has come to an end, and the client is taken in or not. -/
  | enrol (platform : String) (entry : Path) (sink : Sink) (seed : Except ResolveFault Graph) :
      Step r s st ((s.enrol platform entry sink seed).1.toOption.toList.map .numbered)
        (s.enrol platform entry sink seed).2 st
  | start (id : ConnectionId) : Step r s st [] (s.start id) st
  | disconnect (id : ConnectionId) :
      Step r s st (s.clings (s.disconnect id).2) (s.disconnect id).2 st
  | close (id : ConnectionId) : Step r s st [] (s.onSink id Sink.close) st
  | closeAfter (id : ConnectionId) (n : Nat) : Step r s st [] (s.onSink id (·.closeAfter n)) st
  | emit (change : Change) : Step r s st (s.offers change) (s.emit change).2 st
  | work {id : ConnectionId} {w w' : Worker} {deeds : List Deed} {st' : σ}
      (here : s.worker? id = some w) (h : w.Does r st deeds w' st') :
      Step r s st (deeds.map (.did id) ++ s.clings (s.worked id w')) (s.worked id w') st'
  /-- The source will refuse the next listener. -/
  | refuse (reason : String) :
      Step r s st [] (s.withSource { s.store.fanout.source with refusal := some reason }) st
  /-- The source will not let its listener go the next time. -/
  | cling : Step r s st [] (s.withSource { s.store.fanout.source with isSticky := true }) st
  /-- The files change. -/
  | edit (st' : σ) : Step r s st [] s st'

/-- Any number of steps, and what is seen of them. -/
inductive Run {σ : Type} (r : Resolver σ) (s₀ : Service) (st₀ : σ) :
    List Note → Service → σ → Prop where
  | start : Run r s₀ st₀ [] s₀ st₀
  | step {log notes : List Note} {s s' : Service} {st st' : σ} (t : Run r s₀ st₀ log s st)
      (h : Step r s st notes s' st') : Run r s₀ st₀ (log ++ notes) s' st'

theorem Step.sound {σ : Type} {r : Resolver σ} {s s' : Service} {st st' : σ} {notes : List Note}
    (h : Step r s st notes s' st') (sound : s.Sound) : s'.Sound := by
  cases h with
  | enrol platform entry sink seed => exact sound.enrol platform entry sink seed
  | start id => exact sound.start id
  | disconnect id => exact sound.disconnect id
  | close id => exact sound.onSink id Sink.close
  | closeAfter id n => exact sound.onSink id (·.closeAfter n)
  | emit change => exact sound.emit change
  | work here does => exact sound.worked here does
  | refuse reason => exact sound.withSource rfl
  | cling => exact sound.withSource rfl
  | edit => exact sound

namespace Run

variable {σ : Type} {r : Resolver σ} {s₀ s s' : Service} {st₀ st st' : σ} {log log' : List Note}

/-- **The registry and the workers go together** in every state of a run. -/
theorem sound (run : Run r s₀ st₀ log s st) (sound : s₀.Sound) : s.Sound := by
  induction run with
  | start => exact sound
  | step _ h ih => exact h.sound ih

theorem trans (run : Run r s₀ st₀ log s st) (more : Run r s st log' s' st') :
    Run r s₀ st₀ (log ++ log') s' st' := by
  induction more with
  | start => simpa using run
  | step _ h ih =>
    rw [← List.append_assoc]
    exact ih.step h

/-- A step of which nothing is seen. -/
theorem quiet (run : Run r s₀ st₀ log s st) (h : Step r s st [] s' st') :
    Run r s₀ st₀ log s' st' := by
  simpa using run.step h

/-! ### What a service does is a run -/

theorem connect (r : Resolver σ) (s : Service) (platform : String) (entry : Path) (sink : Sink)
    (st : σ) :
    Run r s st ((s.connect r platform entry sink st).1.toOption.toList.map .numbered)
      (s.connect r platform entry sink st).2.1 (s.connect r platform entry sink st).2.2 := by
  have edited : Run r s st [] s (Search.discover r platform entry st).2 := start.quiet (.edit _)
  have taken := edited.step (.enrol platform entry sink (Search.discover r platform entry st).1)
  unfold Service.connect
  rcases s.enrol_cases platform entry sink (Search.discover r platform entry st).1 with
    ⟨fault, refusal, nextId, -, he⟩ | ⟨graph, source, -, -, he⟩
  · simp only [he] at taken ⊢
    exact taken
  · simp only [he] at taken ⊢
    exact taken.quiet (.start _)

theorem emit (r : Resolver σ) (s : Service) (change : Change) (st : σ) :
    Run r s st (s.offers change) (s.emit change).2 st :=
  start.step (.emit change)

theorem of_step? {id : ConnectionId} (h : s.step? r id st = some (s', st')) :
    ∃ log, Run r s st log s' st' := by
  obtain ⟨w, deeds, w', here, does, rfl⟩ := step?_iff.mp h
  exact ⟨_, start.step (.work here does)⟩

theorem of_goes (h : Goes r s st s' st') : ∃ log, Run r s st log s' st' := by
  induction h with
  | refl => exact ⟨[], start⟩
  | step h _ ih =>
    obtain ⟨log, run⟩ := of_step? h
    obtain ⟨log', more⟩ := ih
    exact ⟨_, run.trans more⟩

theorem settle (r : Resolver σ) (s : Service) (st : σ) :
    ∃ log, Run r s st log (s.settle r st).1 (s.settle r st).2 :=
  of_goes (goes_settle r s st)

end Run

end Service

namespace Sample

/-- The program is served to one client, and its second file is edited. -/
def online : Service × Tree :=
  let (_, s, t) := ({} : Service).connect Tree.resolver "ios" entry {} tree
  ((s.emit edit).2, t)

theorem online_run :
    Service.Run Tree.resolver {} tree ([.numbered 1] ++ [.offered 1 edit]) online.1 online.2 :=
  (Service.Run.connect Tree.resolver {} "ios" entry {} tree).trans (.emit Tree.resolver _ edit _)

end Sample

end HotReload
