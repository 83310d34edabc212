import HotReload.Proofs.Service.Ready

/-!
# Connections that fare alike

A connection of one service and a connection of another are twins where their workers differ in the
number of the connection alone.  What is done to both services leaves twins as they are, and so does
what is done in either to other connections.

* `Service.Twins`: two connections are twins.
* `Service.Twins.report`, `Service.Twins.settles`: they stay twins.
* `Service.Paired`: two lists of connections are twins, one by one.
* `Service.Paired.connect`: a client that connects to both services is given twins.
-/

namespace HotReload

theorem Sink.after_nil (s : Sink) : s.after [] = s := by
  obtain ⟨accepted, isOpen, limit⟩ := s
  cases limit <;> simp [after]

namespace Worker

variable (number : ConnectionId → ConnectionId) (w : Worker)

theorem enqueue_dress (change : Change) :
    ((w.dress number).enqueue change).1 = (w.enqueue change).1.dress number := by
  unfold enqueue
  rw [show (w.dress number).isListening = w.isListening from rfl]
  split <;> rfl

theorem part_dress : (w.dress number).part = w.part.dress number := rfl

theorem onSink_dress (f : Sink → Sink) :
    (w.dress number).onConnection (fun c => { c with sink := f c.sink }) =
      (w.onConnection fun c => { c with sink := f c.sink }).dress number := by
  simp only [dress, onConnection, Connection.dress, Sink.after_nil]

end Worker

namespace Service

variable {σ α : Type} {r : Resolver σ} {look : σ → α} {s s' s₁ s₁' : Service} {st st' st₁ st₁' : σ}
  {id id' : ConnectionId}

/-! ### Two connections -/

/-- The workers of two connections differ in the number alone. -/
def Twins (s s' : Service) (id id' : ConnectionId) : Prop :=
  ∃ w, s.worker? id = some w ∧ s'.worker? id' = some (w.dress fun _ => id')

namespace Twins

/-- Nothing was done to either. -/
theorem congr (h : Twins s s' id id') (here : s₁.worker? id = s.worker? id)
    (here' : s₁'.worker? id' = s'.worker? id') : Twins s₁ s₁' id id' := by
  obtain ⟨w, hw, hw'⟩ := h
  exact ⟨w, here.trans hw, here'.trans hw'⟩

/-- The same was done to both. -/
theorem map (h : Twins s s' id id') {f : Worker → Worker}
    (dressed : ∀ w : Worker, f (w.dress fun _ => id') = (f w).dress fun _ => id')
    (here : s₁.worker? id = (s.worker? id).map f)
    (here' : s₁'.worker? id' = (s'.worker? id').map f) : Twins s₁ s₁' id id' := by
  obtain ⟨w, hw, hw'⟩ := h
  refine ⟨f w, ?_, ?_⟩
  · rw [here, hw]
    rfl
  · rw [here', hw']
    exact congrArg some (dressed w)

theorem messagesOf (h : Twins s s' id id') : s'.messagesOf id' = s.messagesOf id := by
  obtain ⟨w, hw, hw'⟩ := h
  simp only [Service.messagesOf, hw, hw']
  exact congrArg Sink.accepted (Sink.after_nil w.connection.sink)

/-- Of twins both are registered, or neither is. -/
theorem contains (h : Twins s s' id id') (sound : s.Sound) (sound' : s'.Sound) :
    s'.store.contains id' = s.store.contains id := by
  obtain ⟨w, hw, hw'⟩ := h
  rw [← sound.fed id w hw, ← sound'.fed id' _ hw']
  rfl

theorem emit (h : Twins s s' id id') (sound : s.Sound) (sound' : s'.Sound) (change : Change) :
    Twins (s.emit change).2 (s'.emit change).2 id id' := by
  have registered := h.contains sound sound'
  have here := sound.worker?_emit change id
  have here' := sound'.worker?_emit change id'
  rw [registered] at here'
  cases there : s.store.contains id with
  | true =>
    rw [there, if_pos rfl] at here here'
    exact h.map (Worker.enqueue_dress _ · change) here here'
  | false =>
    rw [there, if_neg Bool.false_ne_true] at here here'
    exact h.congr here here'

theorem report (h : Twins s s' id id') (sound : s.Sound) (sound' : s'.Sound)
    (changes : List Change) : Twins (s.report changes) (s'.report changes) id id' := by
  induction changes generalizing s s' with
  | nil => exact h
  | cons change changes ih =>
    exact ih (h.emit sound sound' change) (sound.emit change) (sound'.emit change)

theorem disconnect (h : Twins s s' id id') (sound : s.Sound) (sound' : s'.Sound) :
    Twins (s.disconnect id).2 (s'.disconnect id').2 id id' := by
  have registered := h.contains sound sound'
  cases there : s.store.contains id with
  | true =>
    exact h.map (Worker.part_dress _) (worker?_disconnect_self there)
      (worker?_disconnect_self (registered.trans there))
  | false =>
    rw [disconnect_of_not_contains there, disconnect_of_not_contains (registered.trans there)]
    exact h

theorem onSink (h : Twins s s' id id') (f : Sink → Sink) :
    Twins (s.onSink id f) (s'.onSink id' f) id id' :=
  h.map (Worker.onSink_dress _ · f) (worker?_onWorker_self s id _) (worker?_onWorker_self s' id' _)

/-- **Twins that have gone on until they wait** are twins, though they went on in other company. -/
theorem settles (h : Twins s s' id id') (m : r.Matches r fun st st' => look st = look st')
    (k : r.Keeps look) (same : look st = look st') (sound : s.Sound) (sound' : s'.Sound)
    (went : Settles r s st s₁ st₁) (went' : Settles r s' st' s₁' st₁') : Twins s₁ s₁' id id' := by
  obtain ⟨w, hw, hw'⟩ := h
  obtain ⟨u, hu, passes, waits⟩ := went.passes m k sound hw
  obtain ⟨v, hv, passes', waits'⟩ := went'.passes m k sound' hw'
  -- the second worker is the first one under another number, so it waits where that one does
  have waits_dressed : (u.dress fun _ => id').next? r st = none := by
    rw [Worker.next?_dress, waits]
    rfl
  rw [← Worker.next?_congr m same] at waits'
  refine ⟨u, hu, hv.trans (congrArg some ?_)⟩
  exact (passes'.congr m same.symm).unique waits' (passes.dress fun _ => id') waits_dressed

end Twins

/-! ### Lists of connections -/

/-- The connections of two lists are twins, one by one; where a client was not given one, there is
none in either. -/
inductive Paired (s s' : Service) :
    List (Option ConnectionId) → List (Option ConnectionId) → Prop where
  | nil : Paired s s' [] []
  | failed {ids ids' : List (Option ConnectionId)} (rest : Paired s s' ids ids') :
      Paired s s' (none :: ids) (none :: ids')
  | joined {id id' : ConnectionId} {ids ids' : List (Option ConnectionId)} (h : Twins s s' id id')
      (new : some id ∉ ids) (new' : some id' ∉ ids') (rest : Paired s s' ids ids') :
      Paired s s' (some id :: ids) (some id' :: ids')

namespace Paired

variable {ids ids' : List (Option ConnectionId)}

theorem imp (h : Paired s s' ids ids')
    (step : ∀ id id', some id ∈ ids → some id' ∈ ids' → Twins s s' id id' → Twins s₁ s₁' id id') :
    Paired s₁ s₁' ids ids' := by
  induction h with
  | nil => exact .nil
  | failed _ ih =>
    exact .failed (ih fun id id' mem mem' =>
      step id id' (List.mem_cons_of_mem _ mem) (List.mem_cons_of_mem _ mem'))
  | joined twins new new' _ ih =>
    refine .joined (step _ _ List.mem_cons_self List.mem_cons_self twins) new new'
      (ih fun id id' mem mem' => ?_)
    exact step id id' (List.mem_cons_of_mem _ mem) (List.mem_cons_of_mem _ mem')

theorem messages (h : Paired s s' ids ids') :
    ids'.map (·.map s'.messagesOf) = ids.map (·.map s.messagesOf) := by
  induction h with
  | nil => rfl
  | failed _ ih => exact congrArg (none :: ·) ih
  | joined twins _ _ _ ih =>
    exact congrArg₂ (· :: ·) (congrArg some twins.messagesOf) ih

/-- **What is done to the first connection** of both lists. -/
theorem first (h : Paired s s' ids ids') {op : Service → ConnectionId → Service}
    (others : ∀ s id j, j ≠ id → (op s id).worker? j = s.worker? j)
    (twins : ∀ id id', Twins s s' id id' → Twins (op s id) (op s' id') id id') :
    Paired (ids.head?.join.elim s (op s)) (ids'.head?.join.elim s' (op s')) ids ids' := by
  cases h with
  | nil => exact .nil
  | failed rest => exact .failed rest
  | joined both new new' rest =>
    refine .joined (twins _ _ both) new new' (rest.imp fun j j' mem mem' h => ?_)
    exact h.congr (others s _ j fun same => new (same ▸ mem))
      (others s' _ j' fun same => new' (same ▸ mem'))

/-- **A client that connects to both** is given twins, or a connection of neither. -/
theorem connect (h : Paired s s' ids ids') (m : r.Matches r fun st st' => look st = look st')
    (same : look st = look st') (ready : s.Ready) (ready' : s'.Ready)
    (endpoint : s.endpoint = s'.endpoint) (below : ∀ id, some id ∈ ids → id < s.store.nextId)
    (below' : ∀ id, some id ∈ ids' → id < s'.store.nextId) (platform : String) (entry : Path) :
    Paired (s.connect r platform entry {} st).2.1 (s'.connect r platform entry {} st').2.1
      ((s.connect r platform entry {} st).1.toOption :: ids)
      ((s'.connect r platform entry {} st').1.toOption :: ids') := by
  have rest : Paired (s.connect r platform entry {} st).2.1
      (s'.connect r platform entry {} st').2.1 ids ids' :=
    h.imp fun id id' mem mem' twins => twins.congr
      (worker?_connect_ne r s platform entry {} st (Nat.ne_of_lt (below id mem)))
      (worker?_connect_ne r s' platform entry {} st' (Nat.ne_of_lt (below' id' mem')))
  have found := (m.discover same platform entry).1
  rcases ready.connect_cases r platform entry {} st with
      ⟨fault, seed, he⟩ | ⟨graph, s₁, seed, he, -, -, self⟩ <;>
    rcases ready'.connect_cases r platform entry {} st' with
      ⟨fault', seed', he'⟩ | ⟨graph', s₁', seed', he', -, -, self'⟩ <;>
    rw [seed, seed'] at found
  · rw [he, he'] at rest ⊢
    exact .failed rest
  · cases found
  · cases found
  · obtain rfl : graph = graph' := Except.ok.inj found
    rw [he, he'] at rest ⊢
    refine .joined ⟨_, self, self'.trans ?_⟩ (fun mem => absurd (below _ mem) (Nat.lt_irrefl _))
      (fun mem => absurd (below' _ mem) (Nat.lt_irrefl _)) rest
    rw [newcomer, ← endpoint]
    rfl

end Paired

end Service

end HotReload
