import HotReload.Proofs.Service.Refusal
import HotReload.Proofs.Service.Settle

/-!
# Services that are ready

A service is ready where its registry is sound, its source refuses nobody and no worker is amid its
questions.  Whatever is done to a ready service from without, it stays ready, and it settles.

* `Service.Ready`: a service is ready.
* `Service.Ready.connect_cases`: a client is given the next connection, where its graph is found.
* `Service.Ready.settles`, `Service.Settles.ready`: a ready service settles, and is ready again.
-/

namespace HotReload

/-! ### Workers -/

namespace Worker

variable {w w' : Worker}

theorem Calm.of_cycle (h : w.Calm) (cycle : w'.connection.cycle = w.connection.cycle)
    (live : w'.Live → w.Live) : w'.Calm := by
  intro live'
  rw [cycle]
  exact h (live live')

theorem Calm.part (h : w.Calm) : w.part.Calm :=
  h.of_cycle rfl fun live => ⟨live.isStarted, live.going⟩

theorem Calm.onSink (h : w.Calm) (f : Sink → Sink) :
    (w.onConnection fun c => { c with sink := f c.sink }).Calm :=
  h.of_cycle rfl fun live => ⟨live.isStarted, live.going⟩

theorem Calm.enqueue (h : w.Calm) (change : Change) : (w.enqueue change).1.Calm := by
  unfold Worker.enqueue
  split
  · exact h.of_cycle rfl fun live => ⟨live.isStarted, live.going⟩
  · exact h

end Worker

namespace Service

variable {σ α : Type} {r : Resolver σ} {look : σ → α} {s s' : Service} {st st' : σ}
  {id : ConnectionId}

/-! ### What steps leave alone -/

/-- What changes only when a client connects, or not at all: where the clients reach the service,
the number of the next connection, and whether the source refuses the next listener. -/
def fixed (s : Service) : Endpoint × ConnectionId × Option String :=
  (s.endpoint, s.store.nextId, s.store.fanout.source.refusal)

theorem endpoint_of_fixed (h : s'.fixed = s.fixed) : s'.endpoint = s.endpoint :=
  congrArg Prod.fst h

theorem nextId_of_fixed (h : s'.fixed = s.fixed) : s'.store.nextId = s.store.nextId :=
  congrArg (·.2.1) h

theorem refusal_of_fixed (h : s'.fixed = s.fixed) :
    s'.store.fanout.source.refusal = s.store.fanout.source.refusal :=
  congrArg (·.2.2) h

theorem fixed_disconnect (s : Service) (id : ConnectionId) :
    (s.disconnect id).2.fixed = s.fixed := by
  cases there : s.store.contains id with
  | false => rw [disconnect_of_not_contains there]
  | true =>
    rw [disconnect_of_contains there]
    exact congrArg (s.endpoint, ·)
      (congrArg₂ Prod.mk (Store.unregister_nextId id) (s.store.unregister_refusal id))

theorem fixed_emit (s : Service) (change : Change) : (s.emit change).2.fixed = s.fixed := by
  have told : ∀ (ids : List ConnectionId) (s : Service),
      (tellAll (hand change) ids s).fixed = s.fixed := by
    intro ids
    induction ids with
    | nil => exact fun _ => rfl
    | cons id ids ih => exact fun s => ih (hand change id s)
  unfold Service.emit
  split
  · rfl
  · exact told _ s

theorem connect_state (r : Resolver σ) (s : Service) (platform : String) (entry : Path)
    (sink : Sink) (st : σ) :
    (s.connect r platform entry sink st).2.2 = (Search.discover r platform entry st).2 := by
  rcases s.connect_cases r platform entry sink st with
    ⟨fault, refusal, nextId, -, he⟩ | ⟨graph, source, -, he⟩ <;> rw [he]

theorem connect_endpoint (r : Resolver σ) (s : Service) (platform : String) (entry : Path)
    (sink : Sink) (st : σ) :
    (s.connect r platform entry sink st).2.1.endpoint = s.endpoint := by
  rcases s.connect_cases r platform entry sink st with
    ⟨fault, refusal, nextId, -, he⟩ | ⟨graph, source, -, he⟩
  · rw [he]
  · rw [he]
    rfl

theorem worker?_connect_ne (r : Resolver σ) (s : Service) (platform : String) (entry : Path)
    (sink : Sink) (st : σ) (other : id ≠ s.store.nextId) :
    (s.connect r platform entry sink st).2.1.worker? id = s.worker? id := by
  rcases s.connect_cases r platform entry sink st with
    ⟨fault, refusal, nextId, -, he⟩ | ⟨graph, source, -, he⟩
  · rw [he]
    rfl
  · rw [he]
    exact (worker?_onWorker_ne _ _ other).trans (s.worker?_admitted_ne source _ other)

/-- The source reports some changes, one right after the other. -/
def report (s : Service) (changes : List Change) : Service :=
  changes.foldl (fun s change => (s.emit change).2) s

theorem fixed_report (s : Service) (changes : List Change) :
    (s.report changes).fixed = s.fixed := by
  induction changes generalizing s with
  | nil => rfl
  | cons change changes ih => exact (ih (s.emit change).2).trans (s.fixed_emit change)

theorem fixed_worked (s : Service) (id : ConnectionId) (w : Worker) :
    (s.worked id w).fixed = s.fixed := by
  unfold worked
  cases w.farewell? with
  | none => rfl
  | some exit => exact fixed_disconnect _ id

theorem Goes.fixed (h : Goes r s st s' st') : s'.fixed = s.fixed := by
  induction h with
  | refl => rfl
  | step h _ ih =>
    obtain ⟨w, deeds, w', -, -, rfl⟩ := step?_iff.mp h
    exact ih.trans (fixed_worked _ _ w')

/-! ### Ready services -/

/-- A service is ready for whatever is done to it. -/
structure Ready (s : Service) : Prop where
  sound : s.Sound
  welcome : s.store.fanout.source.refusal = none
  calm : ∀ id w, s.worker? id = some w → w.Calm

namespace Ready

theorem new (endpoint : Endpoint) : ({ endpoint } : Service).Ready where
  sound := .new endpoint
  welcome := rfl
  calm _ _ h := by cases h

theorem onWorker_calm (h : s.Ready) {f : Worker → Worker} (calm : ∀ w : Worker, w.Calm → (f w).Calm)
    (id j : ConnectionId) (w : Worker) (here : (s.onWorker id f).worker? j = some w) : w.Calm := by
  by_cases same : j = id
  · subst same
    rw [worker?_onWorker_self] at here
    obtain ⟨v, hv, rfl⟩ := Option.map_eq_some_iff.mp here
    exact calm v (h.calm j v hv)
  · rw [worker?_onWorker_ne _ f same] at here
    exact h.calm j w here

theorem disconnect (h : s.Ready) (id : ConnectionId) : (s.disconnect id).2.Ready where
  sound := h.sound.disconnect id
  welcome := (refusal_of_fixed (s.fixed_disconnect id)).trans h.welcome
  calm j w here := by
    cases there : s.store.contains id with
    | false =>
      rw [disconnect_of_not_contains there] at here
      exact h.calm j w here
    | true =>
      rw [disconnect_of_contains there] at here
      exact h.onWorker_calm (fun _ => Worker.Calm.part) id j w here

theorem onSink (h : s.Ready) (id : ConnectionId) (f : Sink → Sink) : (s.onSink id f).Ready where
  sound := h.sound.onSink id f
  welcome := h.welcome
  calm := h.onWorker_calm (fun _ calm => calm.onSink f) id

theorem cling (h : s.Ready) :
    (s.withSource { s.store.fanout.source with isSticky := true }).Ready where
  sound := h.sound.withSource rfl
  welcome := h.welcome
  calm := h.calm

theorem emit (h : s.Ready) (change : Change) : (s.emit change).2.Ready where
  sound := h.sound.emit change
  welcome := (refusal_of_fixed (s.fixed_emit change)).trans h.welcome
  calm id w here := by
    rw [h.sound.worker?_emit] at here
    split at here
    · obtain ⟨v, hv, rfl⟩ := Option.map_eq_some_iff.mp here
      exact (h.calm id v hv).enqueue change
    · exact h.calm id w here

theorem report (h : s.Ready) (changes : List Change) : (s.report changes).Ready := by
  induction changes generalizing s with
  | nil => exact h
  | cons change changes ih => exact ih (h.emit change)

/-- One more client, whose worker is started. -/
theorem admitted (h : s.Ready) {source : Source} (listens : s.store.fanout.Listens source)
    {w : Worker} (fed : w.isFed = true) (going : w.exit = none) (idle : w.connection.cycle = none) :
    ((s.admitted source w).start s.store.nextId).Ready where
  sound := (h.sound.admitted listens fed going).start _
  welcome := listens.refusal.trans h.welcome
  calm j v here := by
    by_cases same : j = s.store.nextId
    · subst same
      rw [start, worker?_onWorker_self, h.sound.worker?_admitted_self] at here
      cases here
      exact fun _ => .inl idle
    · rw [start, worker?_onWorker_ne _ _ same, worker?_admitted_ne s source w same] at here
      exact h.calm j v here

/-- **Connecting a client**: it is given the next connection, or its graph is not discovered. -/
theorem connect_cases (h : s.Ready) (r : Resolver σ) (platform : String) (entry : Path)
    (sink : Sink) (st : σ) :
    (∃ fault, (Search.discover r platform entry st).1 = .error fault ∧
      s.connect r platform entry sink st =
        (.error (.ofResolve fault), s, (Search.discover r platform entry st).2)) ∨
    ∃ graph s', (Search.discover r platform entry st).1 = .ok graph ∧
      s.connect r platform entry sink st =
        (.ok s.store.nextId, s', (Search.discover r platform entry st).2) ∧
      s'.Ready ∧ s'.store.nextId = s.store.nextId + 1 ∧
      s'.worker? s.store.nextId =
        some { s.newcomer platform entry sink graph with isStarted := true } := by
  unfold Service.connect
  cases seed : (Search.discover r platform entry st).1 with
  | error fault => exact .inl ⟨fault, rfl, by simp [enrol, Store.register, seed]⟩
  | ok graph =>
    obtain ⟨source, listens, he⟩ := enrol_of_welcome h.welcome platform entry sink graph
    refine .inr ⟨graph, (s.admitted source (s.newcomer platform entry sink graph)).start _, rfl,
      by simp only [seed, he], h.admitted listens rfl rfl rfl, rfl, ?_⟩
    rw [start, worker?_onWorker_self, h.sound.worker?_admitted_self]
    rfl

end Ready

/-! ### Settling -/

theorem Ready.settles (h : s.Ready) (m : r.Matches r fun st st' => look st = look st')
    (k : r.Keeps look) (finds : r.Finds (r.bound st) st) :
    Settles r s st (s.settle r st).1 (s.settle r st).2 :=
  h.sound.settles_settle m k finds h.calm

/-- **A service that has settled is ready.** -/
theorem Settles.ready (h : Settles r s st s' st') (ready : s.Ready) : s'.Ready where
  sound := h.goes.sound ready.sound
  welcome := (refusal_of_fixed h.goes.fixed).trans ready.welcome
  calm id w here := Worker.calm_of_waits (step?_eq_none_iff.mp (h.still id) w here)

end Service

end HotReload
