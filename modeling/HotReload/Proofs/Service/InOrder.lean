import HotReload.Proofs.Service.Run

/-!
# One change at a time, in order

What the source delivers to a connection is taken by its worker in that order, each change once and
only where no other one is in hand.  Nothing is lost between the subscription and the start of the
worker, nor while a build is held: what a worker was offered is what it took and what waits, for as
long as it has not stopped.

* `Worker.Fares`: what a step of the service means for one worker.
* `Worker.Kept`: what a worker that was offered some changes has done with them.
* `Service.Run.orderly`: what holds of every connection in every state of a run.
-/

namespace HotReload

/-! ### One worker -/

namespace Worker

/-- What happens to a worker in a step of the service: the changes that it is offered, and what it
does. -/
inductive Fares {σ : Type} (r : Resolver σ) (w : Worker) (st : σ) :
    List Change → List Deed → Worker → Prop where
  | rests : Fares r w st [] [] w
  | starts : Fares r w st [] [] { w with isStarted := true }
  | parts : Fares r w st [] [] w.part
  | sinks (f : Sink → Sink) :
      Fares r w st [] [] (w.onConnection fun c => { c with sink := f c.sink })
  | offered (change : Change) (fed : w.isFed = true) :
      Fares r w st [change] [] (w.enqueue change).1
  | does {deeds : List Deed} {w' : Worker} {st' : σ} (h : w.Does r st deeds w' st') :
      Fares r w st [] deeds w'
  /-- It tells why it stopped, and is taken out. -/
  | leaves {deeds : List Deed} {w' : Worker} {st' : σ} (h : w.Does r st deeds w' st') :
      Fares r w st [] deeds w'.part

/-- What a worker that was offered some changes has done with them. -/
structure Kept (offered : List Change) (deeds : List Deed) (w : Worker) : Prop where
  /-- While the worker goes on, what it did not take waits. -/
  going : w.exit = none → offered = deeds.filterMap Deed.change? ++ w.queue
  order : deeds.filterMap Deed.change? <+: offered
  hand : deeds.foldlM Deed.hands false = some w.connection.cycle.isSome
  told : deeds.filterMap Deed.exit? = w.farewell?.toList
  stopped : w.exit.isSome = true → w.connection.cycle = none
  drained : w.exit = some .drained → w.isFed = false ∧ deeds.filterMap Deed.change? = offered

namespace Kept

variable {offered : List Change} {deeds : List Deed} {w w' : Worker}

/-- Nothing was offered to a new worker, and it did nothing. -/
theorem fresh (exit : w.exit = none) (queue : w.queue = []) (cycle : w.connection.cycle = none) :
    Kept [] [] w where
  going _ := by rw [queue]; rfl
  order := List.prefix_rfl
  hand := by rw [cycle]; rfl
  told := by rw [farewell?, exit]; rfl
  stopped _ := cycle
  drained h := by
    rw [exit] at h
    cases h

/-- What neither feeds nor moves a worker. -/
theorem aside (h : Kept offered deeds w) (exit : w'.exit = w.exit) (queue : w'.queue = w.queue)
    (cycle : w'.connection.cycle = w.connection.cycle)
    (unfed : w.isFed = false → w'.isFed = false) :
    Kept offered deeds w' where
  going going := by
    rw [queue]
    exact h.going (exit.symm.trans going)
  order := h.order
  hand := by
    rw [cycle]
    exact h.hand
  told := by
    rw [farewell?, exit]
    exact h.told
  stopped stopped := by
    rw [exit] at stopped
    exact cycle.trans (h.stopped stopped)
  drained drained := by
    obtain ⟨fed, all⟩ := h.drained (exit.symm.trans drained)
    exact ⟨unfed fed, all⟩

theorem enqueue (h : Kept offered deeds w) (fed : w.isFed = true) (change : Change) :
    Kept (offered ++ [change]) deeds (w.enqueue change).1 := by
  have order : deeds.filterMap Deed.change? <+: offered ++ [change] :=
    h.order.trans (List.prefix_append _ _)
  have drained : w.exit ≠ some .drained := fun drained => by
    rw [(h.drained drained).1] at fed
    cases fed
  cases listening : w.isListening with
  | true =>
    have going : w.exit = none := by
      rw [isListening, fed, Bool.true_and] at listening
      exact Option.isNone_iff_eq_none.mp listening
    simp only [Worker.enqueue, listening, if_true]
    exact { h with
      going := fun _ => by rw [h.going going, List.append_assoc]
      order
      drained := fun stopped => absurd stopped drained }
  | false =>
    have stopped : w.exit ≠ none := fun going => by
      rw [isListening, fed, going] at listening
      cases listening
    simp only [Worker.enqueue, listening]
    exact { h with
      going := fun going => absurd going stopped
      order
      drained := fun stopped => absurd stopped drained }

theorem does {σ : Type} {r : Resolver σ} {st st' : σ} {more : List Deed}
    (h : Kept offered deeds w) (does : w.Does r st more w' st') :
    Kept offered (deeds ++ more) w' := by
  have all := h.going does.live.going
  refine ⟨fun going => ?_, ?_, ?_, ?_, does.cycle_of_stopped, fun drained => ?_⟩
  · rw [List.filterMap_append, List.append_assoc, ← does.queue_eq going]
    exact all
  · rw [List.filterMap_append, all]
    exact (List.prefix_append_right_inj _).mpr does.changes_prefix
  · rw [List.foldlM_append, h.hand]
    exact does.in_hand
  · have silent : w.farewell? = none := by
      rw [farewell?, does.live.going]
      rfl
    rw [List.filterMap_append, h.told, silent]
    exact does.told
  · obtain ⟨unfed, empty, -⟩ := does.drained drained
    have none_taken := does.changes_prefix
    rw [empty, List.prefix_nil] at none_taken
    refine ⟨unfed, ?_⟩
    rw [List.filterMap_append, none_taken, all, empty]

/-- **One step** of the service. -/
theorem fares {σ : Type} {r : Resolver σ} {st : σ} {more : List Change} {done : List Deed}
    (h : Kept offered deeds w) (fares : w.Fares r st more done w') :
    Kept (offered ++ more) (deeds ++ done) w' := by
  cases fares with
  | rests =>
    simp only [List.append_nil]
    exact h
  | starts =>
    simp only [List.append_nil]
    exact h.aside rfl rfl rfl fun unfed => unfed
  | parts =>
    simp only [List.append_nil]
    exact h.aside rfl rfl rfl fun _ => rfl
  | sinks =>
    simp only [List.append_nil]
    exact h.aside rfl rfl rfl fun unfed => unfed
  | offered change fed =>
    simp only [List.append_nil]
    exact h.enqueue fed change
  | does moves =>
    simp only [List.append_nil]
    exact h.does moves
  | leaves moves =>
    simp only [List.append_nil]
    exact (h.does moves).aside rfl rfl rfl fun _ => rfl

end Kept

/-- **A worker that stopped** does nothing more, and stays so. -/
theorem Fares.stopped {σ : Type} {r : Resolver σ} {w w' : Worker} {st : σ} {more : List Change}
    {done : List Deed} (h : w.Fares r st more done w') {exit : WorkerExit}
    (stopped : w.exit = some exit) : done = [] ∧ w'.exit = some exit := by
  have still : ∀ {deeds v st'}, ¬ w.Does r st deeds v st' := fun does => by
    have going := does.live.going
    rw [stopped] at going
    cases going
  cases h with
  | rests => exact ⟨rfl, stopped⟩
  | starts => exact ⟨rfl, stopped⟩
  | parts => exact ⟨rfl, stopped⟩
  | sinks => exact ⟨rfl, stopped⟩
  | offered =>
    refine ⟨rfl, ?_⟩
    unfold enqueue
    split <;> exact stopped
  | does h => exact absurd h still
  | leaves h => exact absurd h still

theorem enqueue_of_stopped {w : Worker} {exit : WorkerExit} (stopped : w.exit = some exit)
    (change : Change) : (w.enqueue change).2 = false := by
  simp [enqueue, isListening, stopped]

end Worker

namespace Service

/-! ### What is seen of one connection -/

/-- The changes that the source delivered to a connection. -/
def offeredTo (id : ConnectionId) (log : List Note) : List Change := log.filterMap (Note.offer? id)

/-- What the worker of a connection did. -/
def deedsOf (id : ConnectionId) (log : List Note) : List Deed := log.filterMap (Note.deed? id)

/-- The changes that a connection was given to handle. -/
def takenBy (id : ConnectionId) (log : List Note) : List Change :=
  (deedsOf id log).filterMap Deed.change?

/-- What the worker of a connection told of why it stopped. -/
def toldBy (id : ConnectionId) (log : List Note) : List WorkerExit :=
  (deedsOf id log).filterMap Deed.exit?

section Views

variable (id : ConnectionId)

@[simp] theorem offeredTo_append (log log' : List Note) :
    offeredTo id (log ++ log') = offeredTo id log ++ offeredTo id log' :=
  List.filterMap_append

@[simp] theorem deedsOf_append (log log' : List Note) :
    deedsOf id (log ++ log') = deedsOf id log ++ deedsOf id log' :=
  List.filterMap_append

@[simp] theorem offeredTo_numbered (ids : List ConnectionId) :
    offeredTo id (ids.map .numbered) = [] := by
  simp [offeredTo, Note.offer?]

@[simp] theorem deedsOf_numbered (ids : List ConnectionId) :
    deedsOf id (ids.map .numbered) = [] := by
  simp [deedsOf, Note.deed?]

@[simp] theorem offeredTo_clings (s s' : Service) : offeredTo id (s.clings s') = [] := by
  unfold clings
  split <;> rfl

@[simp] theorem deedsOf_clings (s s' : Service) : deedsOf id (s.clings s') = [] := by
  unfold clings
  split <;> rfl

@[simp] theorem offeredTo_did (j : ConnectionId) (deeds : List Deed) :
    offeredTo id (deeds.map (.did j)) = [] := by
  simp [offeredTo, Note.offer?]

theorem deedsOf_did_self (deeds : List Deed) : deedsOf id (deeds.map (.did id)) = deeds := by
  simp [deedsOf, List.filterMap_map, Function.comp_def, Note.deed?]

theorem deedsOf_did_ne {j : ConnectionId} (other : id ≠ j) (deeds : List Deed) :
    deedsOf id (deeds.map (.did j)) = [] := by
  simp [deedsOf, Note.deed?, Ne.symm other]

@[simp] theorem deedsOf_offers (s : Service) (change : Change) :
    deedsOf id (s.offers change) = [] := by
  simp [deedsOf, offers, Note.deed?]

end Views

/-! ### Steps -/

variable {σ : Type} {r : Resolver σ} {s s' : Service} {st st' : σ} {notes log : List Note}

theorem offeredTo_offered {ids : List ConnectionId} (distinct : ids.Nodup) (change : Change)
    (id : ConnectionId) :
    offeredTo id (ids.map (.offered · change)) = if id ∈ ids then [change] else [] := by
  induction ids with
  | nil => rfl
  | cons j ids ih =>
    obtain ⟨fresh, distinct⟩ := List.nodup_cons.mp distinct
    have rest := ih distinct
    by_cases same : j = id
    · subst same
      rw [if_neg fresh] at rest
      rw [if_pos List.mem_cons_self, List.map_cons, ← rest]
      simp [offeredTo, Note.offer?]
    · have first : offeredTo id ((j :: ids).map (.offered · change)) =
          offeredTo id (ids.map (.offered · change)) := by
        simp [offeredTo, Note.offer?, same]
      rw [first, rest]
      simp only [List.mem_cons, Ne.symm same, false_or]

/-- The source delivers a change to the registered connections, to each once. -/
theorem Sound.offeredTo_offers (sound : s.Sound) (change : Change) (id : ConnectionId) :
    offeredTo id (s.offers change) = if s.store.contains id then [change] else [] := by
  unfold offers
  cases attached : s.store.fanout.source.isAttached with
  | true =>
    rw [Fanout.recipients?, attached, if_pos rfl, sound.store.recipients, Option.getD_some,
      offeredTo_offered sound.store.nodup]
    simp only [Store.mem_ids]
  | false =>
    cases there : s.store.contains id with
    | true =>
      have recipients := sound.store.recipients?_of_contains there
      rw [Fanout.recipients?, attached] at recipients
      cases recipients
    | false =>
      rw [Fanout.recipients?, attached]
      rfl

/-- **What a step means for a worker.** -/
theorem Step.fares (sound : s.Sound) (h : Step r s st notes s' st') {id : ConnectionId}
    {w : Worker} (here : s.worker? id = some w) :
    ∃ w', s'.worker? id = some w' ∧
      w.Fares r st (offeredTo id notes) (deedsOf id notes) w' := by
  -- a step that concerns one connection leaves the others as they are
  have onWorker : ∀ {j : ConnectionId} {f : Worker → Worker},
      w.Fares r st [] [] (f w) →
      ∃ w', (s.onWorker j f).worker? id = some w' ∧ w.Fares r st [] [] w' := by
    intro j f fares
    by_cases same : id = j
    · subst same
      exact ⟨f w, by rw [worker?_onWorker_self, here]; rfl, fares⟩
    · exact ⟨w, by rw [worker?_onWorker_ne _ _ same, here], .rests⟩
  cases h with
  | enrol platform entry sink seed =>
    have other : id ≠ s.store.nextId := Nat.ne_of_lt (sound.lt_nextId here)
    simp only [offeredTo_numbered, deedsOf_numbered]
    exact ⟨w, (s.worker?_enrol_ne platform entry sink seed other).trans here, .rests⟩
  | start j => exact onWorker .starts
  | disconnect j =>
    simp only [offeredTo_clings, deedsOf_clings]
    cases there : s.store.contains j with
    | false =>
      rw [disconnect_of_not_contains there]
      exact ⟨w, here, .rests⟩
    | true =>
      rw [disconnect_of_contains there]
      exact onWorker .parts
  | close j => exact onWorker (.sinks Sink.close)
  | closeAfter j n => exact onWorker (.sinks (·.closeAfter n))
  | emit change =>
    simp only [sound.offeredTo_offers, deedsOf_offers, sound.worker?_emit]
    split
    · next there =>
      have fed : w.isFed = true := (sound.fed id w here).trans there
      exact ⟨_, congrArg (Option.map _) here, .offered change fed⟩
    · exact ⟨w, here, .rests⟩
  | @work j v v' deeds _ here' does =>
    simp only [offeredTo_append, offeredTo_did, offeredTo_clings, deedsOf_append, deedsOf_clings,
      List.append_nil]
    by_cases same : id = j
    · subst same
      rw [here] at here'
      cases here'
      rw [deedsOf_did_self, worker?_worked_self here]
      refine ⟨_, rfl, ?_⟩
      split
      · exact .leaves does
      · exact .does does
    · rw [deedsOf_did_ne id same]
      exact ⟨w, (worker?_worked_ne same v').trans here, .rests⟩
  | refuse reason => exact ⟨w, here, .rests⟩
  | cling => exact ⟨w, here, .rests⟩
  | edit => exact ⟨w, here, .rests⟩

/-- A connection that has no worker yet is offered nothing, and a new worker has done nothing. -/
theorem Step.absent (sound : s.Sound) (h : Step r s st notes s' st') {id : ConnectionId}
    (new : s.worker? id = none) :
    offeredTo id notes = [] ∧ deedsOf id notes = [] ∧
      ∀ w, s'.worker? id = some w → w.Kept [] [] := by
  have unregistered : s.store.contains id = false := by
    cases there : s.store.contains id with
    | false => rfl
    | true =>
      obtain ⟨w, here, -⟩ := sound.served id there
      rw [new] at here
      cases here
  have still : ∀ {v}, s.worker? id = some v → v.Kept [] [] := fun here => by
    rw [new] at here
    cases here
  -- a change of some worker does not bring this one about
  have onWorker : ∀ {j : ConnectionId} {f : Worker → Worker} {v : Worker},
      (s.onWorker j f).worker? id = some v → v.Kept [] [] := by
    intro j f v here
    by_cases same : id = j
    · subst same
      rw [worker?_onWorker_self, new] at here
      cases here
    · rw [worker?_onWorker_ne _ _ same] at here
      exact still here
  cases h with
  | enrol platform entry sink seed =>
    simp only [offeredTo_numbered, deedsOf_numbered, true_and]
    intro w here
    by_cases same : id = s.store.nextId
    · subst same
      obtain ⟨graph, rfl⟩ := sound.worker?_enrol_new platform entry sink seed here
      exact .fresh rfl rfl rfl
    · rw [s.worker?_enrol_ne platform entry sink seed same] at here
      exact still here
  | start j => exact ⟨rfl, rfl, fun _ => onWorker⟩
  | disconnect j =>
    simp only [offeredTo_clings, deedsOf_clings, true_and]
    intro w here
    cases there : s.store.contains j with
    | false =>
      rw [disconnect_of_not_contains there] at here
      exact still here
    | true =>
      rw [disconnect_of_contains there] at here
      exact onWorker here
  | close j => exact ⟨rfl, rfl, fun _ => onWorker⟩
  | closeAfter j n => exact ⟨rfl, rfl, fun _ => onWorker⟩
  | emit change =>
    simp only [sound.offeredTo_offers, deedsOf_offers, sound.worker?_emit, unregistered]
    exact ⟨rfl, trivial, fun _ => still⟩
  | @work j v v' deeds _ here does =>
    have other : id ≠ j := by
      rintro rfl
      rw [new] at here
      cases here
    simp only [offeredTo_append, offeredTo_did, offeredTo_clings, deedsOf_append, deedsOf_clings,
      deedsOf_did_ne id other, worker?_worked_ne other, List.append_nil, true_and]
    exact fun _ => still
  | refuse reason => exact ⟨rfl, rfl, fun _ => still⟩
  | cling => exact ⟨rfl, rfl, fun _ => still⟩
  | edit => exact ⟨rfl, rfl, fun _ => still⟩

/-! ### Runs -/

/-- What the workers have done with what was delivered. -/
theorem Run.kept {endpoint : Endpoint} {st₀ : σ} (run : Run r { endpoint } st₀ log s st)
    (id : ConnectionId) :
    (s.worker? id = none → offeredTo id log = [] ∧ deedsOf id log = []) ∧
      ∀ w, s.worker? id = some w → w.Kept (offeredTo id log) (deedsOf id log) := by
  induction run with
  | start => exact ⟨fun _ => ⟨rfl, rfl⟩, fun w here => by cases here⟩
  | @step log notes s s' st st' t h ih =>
    have sound := t.sound (.new endpoint)
    simp only [offeredTo_append, deedsOf_append]
    cases here : s.worker? id with
    | none =>
      obtain ⟨offered, done⟩ := ih.1 here
      obtain ⟨offered', done', fresh⟩ := h.absent sound here
      simp only [offered, done, offered', done', List.append_nil]
      exact ⟨fun _ => ⟨trivial, trivial⟩, fresh⟩
    | some w =>
      obtain ⟨w', here', fares⟩ := h.fares sound here
      refine ⟨fun gone => ?_, fun v hv => ?_⟩
      · rw [here'] at gone
        cases gone
      · rw [here'] at hv
        cases hv
        exact (ih.2 w here).fares fares

/-- A worker that stopped stays so and does nothing more. -/
theorem Run.stopped {log' : List Note} (run : Run r s st log' s' st') (sound : s.Sound)
    {id : ConnectionId} {w : Worker} {exit : WorkerExit} (here : s.worker? id = some w)
    (stopped : w.exit = some exit) :
    deedsOf id log' = [] ∧ ∃ w', s'.worker? id = some w' ∧ w'.exit = some exit := by
  induction run with
  | start => exact ⟨rfl, w, here, stopped⟩
  | step t h ih =>
    obtain ⟨done, v, hv, exit⟩ := ih
    obtain ⟨v', hv', fares⟩ := h.fares (t.sound sound) hv
    obtain ⟨done', exit'⟩ := fares.stopped exit
    rw [deedsOf_append, done, done']
    exact ⟨rfl, v', hv', exit'⟩

/-- What holds of a connection in a state that a service has come to. -/
structure Orderly (r : Resolver σ) (log : List Note) (s : Service) (st : σ) (id : ConnectionId) :
    Prop where
  /-- The changes are taken as they were delivered, each once. -/
  order : takenBy id log <+: offeredTo id log
  /-- A change is taken only where none is in hand. -/
  single : ((deedsOf id log).foldlM Deed.hands false).isSome = true
  /-- Where the connection is registered and its worker waits for input, all are taken. -/
  whole : ∀ w, s.worker? id = some w → s.store.contains id = true → w.isStarted = true →
    w.connection.cycle = none → w.step? r st = none → takenBy id log = offeredTo id log
  /-- A worker that has not stopped has told nothing. -/
  silent : ∀ w, s.worker? id = some w → w.exit = none → toldBy id log = []
  /-- A worker that stopped since its client is gone or its session is lost has told so once. -/
  farewell : ∀ w exit, s.worker? id = some w → w.exit = some exit → exit ≠ .drained →
    toldBy id log = [exit]
  /-- A worker that ran dry has told nothing.  Nobody can hand it changes any more, and all that it
  was offered has been dealt with. -/
  dry : ∀ w, s.worker? id = some w → w.exit = some .drained →
    toldBy id log = [] ∧ w.isFed = false ∧ takenBy id log = offeredTo id log ∧
      (deedsOf id log).foldlM Deed.hands false = some false
  /-- A worker that stopped stays so for the same reason.  It does nothing more, tells nothing more
  and takes no change that is handed in. -/
  final : ∀ w exit, s.worker? id = some w → w.exit = some exit →
    ∀ log' s' st', Run r s st log' s' st' →
      deedsOf id log' = [] ∧ ∃ w', s'.worker? id = some w' ∧ w'.exit = some exit ∧
        ∀ change, (w'.enqueue change).2 = false

/-- **Changes are handled one at a time, in order and once**, from the first state of a service on,
whatever clients, files and the source of changes do, and in whatever order the workers go on. -/
theorem Run.orderly {endpoint : Endpoint} {st₀ : σ} (run : Run r { endpoint } st₀ log s st)
    (id : ConnectionId) : Orderly r log s st id := by
  have sound := run.sound (.new endpoint)
  obtain ⟨absent, kept⟩ := run.kept id
  refine ⟨?_, ?_, ?_, ?_, ?_, ?_, ?_⟩
  · cases here : s.worker? id with
    | none =>
      rw [takenBy, (absent here).2]
      exact List.nil_prefix
    | some w => exact (kept w here).order
  · cases here : s.worker? id with
    | none =>
      rw [(absent here).2]
      rfl
    | some w =>
      rw [(kept w here).hand]
      rfl
  · intro w here there started idle waits
    obtain ⟨v, here', going⟩ := sound.served id there
    rw [here] at here'
    cases here'
    have empty : w.queue = [] := by
      rcases Worker.waits_for ⟨started, going⟩ waits with ⟨job, busy, -⟩ | ⟨-, empty, -⟩
      · rw [idle] at busy
        cases busy
      · exact empty
    have all := (kept w here).going going
    rw [empty, List.append_nil] at all
    exact all.symm
  · intro w here going
    rw [toldBy, (kept w here).told, Worker.farewell?, going]
    rfl
  · intro w exit here stopped loud
    rw [toldBy, (kept w here).told, Worker.farewell?, stopped]
    simp [loud]
  · intro w here dry
    obtain ⟨unfed, all⟩ := (kept w here).drained dry
    have idle := (kept w here).stopped (by rw [dry]; rfl)
    refine ⟨?_, unfed, all, ?_⟩
    · rw [toldBy, (kept w here).told, Worker.farewell?, dry]
      rfl
    · rw [(kept w here).hand, idle]
      rfl
  · intro w exit here stopped log' s' st' more
    obtain ⟨done, w', here', stopped'⟩ := more.stopped sound here stopped
    exact ⟨done, w', here', stopped', Worker.enqueue_of_stopped stopped'⟩

end Service

namespace Sample

/-- The worker of the client. -/
def attendant : Worker := (online.1.worker? 1).getD { connection := client }

theorem online_attendant : online.1.worker? 1 = some attendant := by
  have there : (online.1.worker? 1).isSome = true := by decide +kernel
  obtain ⟨w, here⟩ := Option.isSome_iff_exists.mp there
  rw [attendant, here]
  rfl

theorem attendant_live : attendant.Live := by
  have live : attendant.isStarted = true ∧ attendant.exit = none := by decide +kernel
  exact ⟨live.1, live.2⟩

/-- The client is given the edit that was delivered. -/
theorem online_orderly :
    ∃ log s, Service.Run Tree.resolver {} tree log s online.2 ∧
      Service.offeredTo 1 log = [edit] ∧ Service.takenBy 1 log = [edit] ∧
      Service.Orderly Tree.resolver log s online.2 1 := by
  have taken := online_run.step (.work online_attendant (.take attendant_live rfl rfl))
  refine ⟨_, _, taken, ?_, ?_, taken.orderly 1⟩
  · simp only [Service.offeredTo_append, Service.offeredTo_did, Service.offeredTo_clings]
    rfl
  · simp only [Service.takenBy, Service.deedsOf_append, Service.deedsOf_did_self,
      Service.deedsOf_clings, List.filterMap_append, Connection.Moved.takes_changes]
    rfl

end Sample

end HotReload
