import HotReload.Proofs.Service.Lifecycle
import HotReload.Proofs.Service.Settle
import HotReload.Proofs.Session.Framing
import HotReload.Proofs.Session.Loss

/-!
# Where workers stand

The clients of a service are taken in with graphs that were discovered, and then its workers go on
in any order while the files change.  At every moment a worker that has not stopped is idle, or it
deals with one change that it took up when it was idle.

* `Worker.Stirs`: what can happen around a worker; `Service.Step.stirs_or_does`: a step of the
  service is such an event for a worker, or a step of the worker itself.
* `Service.Course`: a run in which clients are taken in with graphs that were discovered.
* `Service.Course.attends`: where its workers stand.
-/

namespace HotReload

/-! ### One worker -/

namespace Worker

/-- Changes can be handed in as long as the client is registered. -/
def Joined (w : Worker) : Prop := w.isFed = w.connection.isAlive

/-- Something happens around a worker, and it takes no step itself. -/
structure Stirs {σ : Type} (w : Worker) (st : σ) (w' : Worker) (st' : σ) : Prop where
  connection : w.connection.Stirs st w'.connection st'
  exit : w'.exit = w.exit
  joined : w.Joined → w'.Joined

/-- Where a worker stands: it is idle, or deals with a change that it took up when it was idle. -/
structure Attends {σ : Type} (r : Resolver σ) (w : Worker) (st : σ) : Prop where
  joined : w.Joined
  stands : w.exit = none → w.connection.Idle ∨
    ∃ c change st₀ heard, Connection.Idle c ∧
      Connection.Handling r c change st₀ heard (w.connection, none) st

variable {σ : Type} {r : Resolver σ} {w w' : Worker} {st st' : σ}

theorem Joined.heard (h : w.Joined) : w.heard.Joined := by
  unfold Worker.heard
  split
  · rfl
  · exact h

/-- A worker that is idle takes no step of a cycle, and one that deals with a change no other. -/
theorem Attends.handling (h : w.Attends r st) (going : w.exit = none)
    (busy : w.connection.cycle.isSome = true) :
    ∃ c change st₀ heard, Connection.Idle c ∧
      Connection.Handling r c change st₀ heard (w.connection, none) st := by
  rcases h.stands going with idle | within
  · rw [idle.cycle] at busy
    cases busy
  · exact within

theorem Attends.idle (h : w.Attends r st) (going : w.exit = none)
    (free : w.connection.cycle = none) : w.connection.Idle := by
  rcases h.stands going with idle | ⟨c, change, st₀, heard, -, handling⟩
  · exact idle
  · have busy := handling.isSome
    rw [free] at busy
    cases busy

/-- A step of a connection leaves its worker idle, with the change still in hand, or stopped. -/
theorem Attends.of_handling (places : r.Places) {c : Connection} {change : Change} {st₀ : σ}
    {heard : List Answer} {moved : Connection.Moved} (going : w.exit = none) (idle : c.Idle)
    (h : Connection.Handling r c change st₀ heard moved st') (joined : (w.absorb moved).Joined) :
    (w.absorb moved).heard.Attends r st' := by
  refine ⟨joined.heard, fun goes => ?_⟩
  rw [heard_exit] at goes
  rw [heard_of_going goes, absorb_connection]
  rw [absorb_exit going] at goes
  obtain ⟨c', _ | o⟩ := moved
  · exact .inr ⟨c, change, st₀, heard, idle, h⟩
  · have present : some o ≠ some Outcome.discarded := by
      rintro ⟨⟩
      cases goes
    rcases h.traced.lost_or_kept idle (h.placed places) nofun present with
      ⟨-, ousted⟩ | ⟨-, stays⟩
    · rw [ousted.outcome] at goes
      cases goes
    · exact .inl stays.idle

theorem Attends.stirs (h : w.Attends r st) (stirs : w.Stirs st w' st') : w'.Attends r st' := by
  refine ⟨stirs.joined h.joined, fun going => ?_⟩
  rcases h.stands (stirs.exit ▸ going) with idle | ⟨c, change, st₀, heard, idle, handling⟩
  · exact .inl (idle.stir stirs.connection)
  · exact .inr ⟨c, change, st₀, heard, idle, handling.stir stirs.connection⟩

/-- **A step of the worker**, of which the service hears. -/
theorem Attends.does (places : r.Places) (h : w.Attends r st) {deeds : List Deed}
    (does : w.Does r st deeds w' st') : w'.heard.Attends r st' := by
  cases does with
  | @take change queue live free next =>
    have idle := h.idle live.going free
    refine .of_handling (w := { w with queue }) places live.going idle (.start free) ?_
    rw [Joined, absorb_connection, absorb_isFed, (idle.handle_frank change).isAlive]
    exact h.joined
  | go live hs =>
    obtain ⟨c, change, st₀, heard, idle, handling⟩ :=
      h.handling live.going (Connection.isSome_of_step? hs)
    refine .of_handling places live.going idle (handling.step hs) ?_
    rw [Joined, absorb_connection, absorb_isFed, (Connection.step?_frank hs).isAlive]
    exact h.joined
  | dry =>
    refine ⟨Joined.heard (w := w.stop .drained) h.joined, fun going => ?_⟩
    rw [heard_exit] at going
    cases going

end Worker

namespace Service

variable {σ : Type} {r : Resolver σ} {s s' : Service} {st st' : σ} {notes : List Note}

/-- **A step of the service**, for one of its workers: it happens around the worker, or it is a step
of the worker itself. -/
theorem Step.stirs_or_does (sound : s.Sound) (h : Step r s st notes s' st') {id : ConnectionId}
    {w : Worker} (here : s.worker? id = some w) :
    (∃ w', s'.worker? id = some w' ∧ w.Stirs st w' st') ∨
      ∃ deeds w', w.Does r st deeds w' st' ∧ s' = s.worked id w' := by
  have still (st' : σ) : w.Stirs st w st' := ⟨.edited _ _ _, rfl, fun joined => joined⟩
  -- a step that concerns one connection leaves the others as they are
  have onWorker {j : ConnectionId} {f : Worker → Worker} (stirs : w.Stirs st (f w) st) :
      ∃ w', (s.onWorker j f).worker? id = some w' ∧ w.Stirs st w' st := by
    by_cases same : id = j
    · subst same
      exact ⟨f w, by rw [worker?_onWorker_self, here]; rfl, stirs⟩
    · exact ⟨w, by rw [worker?_onWorker_ne _ _ same, here], still st⟩
  cases h with
  | enrol platform entry sink seed =>
    have other : id ≠ s.store.nextId := Nat.ne_of_lt (sound.lt_nextId here)
    exact .inl ⟨w, (s.worker?_enrol_ne platform entry sink seed other).trans here, still st⟩
  | start j => exact .inl (onWorker ⟨.edited _ _ _, rfl, fun joined => joined⟩)
  | disconnect j =>
    cases there : s.store.contains j with
    | false =>
      rw [disconnect_of_not_contains there]
      exact .inl ⟨w, here, still st⟩
    | true =>
      rw [disconnect_of_contains there]
      exact .inl (onWorker ⟨.parted _ _, rfl, fun _ => rfl⟩)
  | close j => exact .inl (onWorker ⟨.closed _ _, rfl, fun joined => joined⟩)
  | closeAfter j n => exact .inl (onWorker ⟨.limited _ _ n, rfl, fun joined => joined⟩)
  | emit change =>
    refine .inl ?_
    rw [sound.worker?_emit, here]
    split
    · refine ⟨(w.enqueue change).1, rfl, ?_⟩
      unfold Worker.enqueue
      split
      · exact ⟨.edited _ _ _, rfl, fun joined => joined⟩
      · exact still st
    · exact ⟨w, rfl, still st⟩
  | @work j v v' deeds _ here' does =>
    by_cases same : id = j
    · subst same
      rw [here] at here'
      cases here'
      exact .inr ⟨deeds, v', does, rfl⟩
    · exact .inl ⟨w, (worker?_worked_ne same v').trans here, still st'⟩
  | refuse reason => exact .inl ⟨w, here, still st⟩
  | cling => exact .inl ⟨w, here, still st⟩
  | edit => exact .inl ⟨w, here, still st'⟩

/-! ### Courses -/

/-- The states that a service comes to: each client is taken in with what a discovery of its graph
brought, whatever happened to the files meanwhile. -/
inductive Course {σ : Type} (r : Resolver σ) (endpoint : Endpoint) (st₀ : σ) :
    Service → σ → Prop where
  | start : Course r endpoint st₀ { endpoint } st₀
  | enrol {s : Service} {st : σ} {platform : String} {entry : Path} {heard : List Answer}
      {seed : Except ResolveFault Graph} (t : Course r endpoint st₀ s st)
      (answered : (Search.start platform entry).Answered heard seed) (placed : Placed heard)
      (sink : Sink) : Course r endpoint st₀ (s.enrol platform entry sink seed).2 st
  /-- A step in which nobody is given a connection. -/
  | step {s s' : Service} {st st' : σ} {notes : List Note} (t : Course r endpoint st₀ s st)
      (h : Step r s st notes s' st') (nobody : handedOut notes = []) :
      Course r endpoint st₀ s' st'

variable {endpoint : Endpoint} {st₀ : σ}

theorem Course.sound (h : Course r endpoint st₀ s st) : s.Sound := by
  induction h with
  | start => exact .new endpoint
  | enrol _ _ _ sink ih => exact ih.enrol _ _ sink _
  | step _ h _ ih => exact h.sound ih

/-- **Where the workers stand.** -/
theorem Course.attends (places : r.Places) (h : Course r endpoint st₀ s st) {id : ConnectionId}
    {w : Worker} (here : s.worker? id = some w) : w.Attends r st := by
  induction h generalizing id w with
  | start => cases here
  | @enrol s st platform entry heard seed t answered placed sink ih =>
    rcases s.enrol_cases platform entry sink seed with
      ⟨fault, refusal, nextId, -, he⟩ | ⟨g, source, rfl, -, he⟩
    · rw [he] at here
      exact ih here
    · rw [he] at here
      by_cases same : id = s.store.nextId
      · subst same
        rw [t.sound.worker?_admitted_self] at here
        cases here
        refine ⟨rfl, fun _ => .inl ⟨rfl, rfl, rfl, ?_⟩⟩
        exact answered.rooted (s := ⟨s.store.nextId, platform, entry, g, true⟩) placed
      · rw [s.worker?_admitted_ne source _ same] at here
        exact ih here
  | @step s s' st st' notes t h nobody ih =>
    -- the worker was there before
    have known : id ∈ s.workers.map (·.1) := by
      have keys := h.keys
      rw [nobody, List.append_nil] at keys
      rw [← keys]
      exact List.mem_map_of_mem (Assoc.mem_of_get?_eq here)
    obtain ⟨v, before⟩ := Option.isSome_iff_exists.mp
      (Assoc.get?_isSome.trans (Assoc.contains_iff.mpr known))
    rcases h.stirs_or_does t.sound before with ⟨v', here', stirs⟩ | ⟨deeds, v', does, rfl⟩
    · rw [here] at here'
      cases here'
      exact (ih before).stirs stirs
    · rw [t.sound.worker?_worked before does] at here
      cases here
      exact (ih before).does places does

end Service

end HotReload
