import HotReload.Proofs.Service.Accepted
import HotReload.Proofs.Session.Coherence

/-!
# When a session ends

A session ends when its entry file is lost, and with nothing else.  Its client is told so, and then
nothing more; the connection is taken out of the service, and with the last one the service lets go
of its source.  Nobody else notices.

While a worker deals with a change the service goes on: other clients come and go, other workers
take their steps, and the files change.  `Service.Tends` follows one worker through all of this, with
what it hears.

* `Service.Tends.step`: whatever happens to the service, the worker goes on with its change.
* `Service.Ousts`: a connection is taken out.
* `Service.Course.dealt`: what comes of a change, for its session and for all others.
-/

namespace HotReload

namespace Service

variable {σ : Type} {r : Resolver σ} {s s₀ s₁ s' : Service} {st st₀ st₁ st' : σ}
  {id : ConnectionId} {change : Change} {heard : List Answer}

/-! ### Dealing with a change -/

/-- The worker of a connection takes a change up and deals with it, step by step; in between anything
can happen to the service and its files.  With what it hears, and with the outcome where there is
one. -/
inductive Tends {σ : Type} (r : Resolver σ) (id : ConnectionId) (change : Change) (s₀ : Service)
    (st₀ : σ) : List Answer → Option Outcome → Service → σ → Prop where
  | takes {w : Worker} {queue : List Change} (here : s₀.worker? id = some w) (live : w.Live)
      (free : w.connection.cycle = none) (next : w.queue = change :: queue) :
      Tends r id change s₀ st₀ [] (w.connection.handle change).2
        (s₀.worked id ({ w with queue }.absorb (w.connection.handle change))) st₀
  | goes {w : Worker} {moved : Connection.Moved} {heard : List Answer} {s : Service} {st st' : σ}
      (t : Tends r id change s₀ st₀ heard none s st) (here : s.worker? id = some w) (live : w.Live)
      (h : w.connection.step? r st = some (moved, st')) :
      Tends r id change s₀ st₀ (heard ++ w.connection.answers r st) moved.2
        (s.worked id (w.absorb moved)) st'
  | aside {w w' : Worker} {heard : List Answer} {notes : List Note} {s s' : Service} {st st' : σ}
      (t : Tends r id change s₀ st₀ heard none s st) (h : Step r s st notes s' st')
      (here : s.worker? id = some w) (here' : s'.worker? id = some w')
      (stirs : w.Stirs st w' st') : Tends r id change s₀ st₀ heard none s' st'

/-- The last step in which a change is dealt with is taken here. -/
def Amid {σ : Type} (r : Resolver σ) (id : ConnectionId) (change : Change) (s₀ : Service) (st₀ : σ)
    (s : Service) (st : σ) : Prop :=
  (s, st) = (s₀, st₀) ∨ ∃ heard, Tends r id change s₀ st₀ heard none s st

/-! ### Steps with a change in hand -/

/-- A worker takes a step with its change: it becomes `v`, with a connection that has come to
`moved`. -/
structure Turn {σ : Type} (r : Resolver σ) (id : ConnectionId) (s : Service) (st : σ) (w v : Worker)
    (moved : Connection.Moved) (s' : Service) (st' : σ) : Prop where
  sound : s.Sound
  here : s.worker? id = some w
  joined : w.Joined
  does : ∃ deeds, w.Does r st deeds v st'
  service : s' = s.worked id v
  connection : v.connection = moved.1
  exit : v.exit = moved.2.bind Outcome.exit?
  frank : moved.Frank w.connection.isAlive

namespace Turn

variable {w v : Worker} {moved : Connection.Moved} {o : Outcome}

theorem of_absorb {u : Worker} (sound : s.Sound) (here : s.worker? id = some w) (joined : w.Joined)
    (going : u.exit = none) {deeds : List Deed} (does : w.Does r st deeds (u.absorb moved) st')
    (frank : moved.Frank w.connection.isAlive) :
    Turn r id s st w (u.absorb moved) moved (s.worked id (u.absorb moved)) st' where
  sound := sound
  here := here
  joined := joined
  does := ⟨deeds, does⟩
  service := rfl
  connection := Worker.absorb_connection u moved
  exit := Worker.absorb_exit going moved
  frank := frank

theorem worker? (h : Turn r id s st w v moved s' st') : s'.worker? id = some v.heard := by
  obtain ⟨deeds, does⟩ := h.does
  rw [h.service]
  exact h.sound.worker?_worked h.here does

theorem sound' (h : Turn r id s st w v moved s' st') : s'.Sound := by
  obtain ⟨deeds, does⟩ := h.does
  rw [h.service]
  exact h.sound.worked h.here does

theorem step? (h : Turn r id s st w v moved s' st') : s.step? r id st = some (s', st') := by
  obtain ⟨deeds, does⟩ := h.does
  exact step?_iff.mpr ⟨w, deeds, v, h.here, does, h.service⟩

theorem joined' (h : Turn r id s st w v moved s' st') : v.Joined := by
  obtain ⟨deeds, does⟩ := h.does
  rw [Worker.Joined, does.isFed, h.connection, h.frank.isAlive]
  exact h.joined

end Turn

/-! ### What is known on the way -/

/-- What is known of a worker that deals with a change. -/
structure Tending {σ : Type} (r : Resolver σ) (change : Change) (w₀ : Worker) (st₀ : σ)
    (heard : List Answer) (s : Service) (w : Worker) (st : σ) : Prop where
  sound : s.Sound
  going : w.exit = none
  joined : w.Joined
  idle : w₀.connection.Idle
  handling : Connection.Handling r w₀.connection change st₀ heard (w.connection, none) st

/-- A step after which the change is still in hand. -/
theorem Turn.tending {w₀ w v : Worker} {moved : Connection.Moved}
    (h : Turn r id s st w v moved s' st') (more : moved.2 = none) (idle : w₀.connection.Idle)
    (handling : Connection.Handling r w₀.connection change st₀ heard moved st') :
    ∃ w', s'.worker? id = some w' ∧ Tending r change w₀ st₀ heard s' w' st' := by
  have going : v.exit = none := by
    rw [h.exit, more]
    rfl
  refine ⟨v, ?_, h.sound', going, h.joined', idle, ?_⟩
  · rw [h.worker?, Worker.heard_of_going going]
  · rw [h.connection, ← more]
    exact handling

section Dealing

variable {w₀ : Worker} (sound : s₀.Sound) (here : s₀.worker? id = some w₀)
  (attends : w₀.Attends r st₀)

include sound here attends

/-- The change is taken up by an idle worker. -/
theorem Tends.taken {w : Worker} {queue : List Change} (here' : s₀.worker? id = some w)
    (live : w.Live) (free : w.connection.cycle = none) (next : w.queue = change :: queue) :
    w = w₀ ∧ w₀.connection.Idle ∧
      Turn r id s₀ st₀ w₀ ({ w with queue }.absorb (w.connection.handle change))
        (w.connection.handle change)
        (s₀.worked id ({ w with queue }.absorb (w.connection.handle change))) st₀ := by
  rw [here] at here'
  cases here'
  have idle := attends.idle live.going free
  exact ⟨rfl, idle, .of_absorb sound here attends.joined live.going (.take live free next)
    (idle.handle_frank change)⟩

/-- **While a change is dealt with**, the worker handles it. -/
theorem Tends.tending {outcome : Option Outcome}
    (t : Tends r id change s₀ st₀ heard outcome s st) (waiting : outcome = none) :
    ∃ w, s.worker? id = some w ∧ Tending r change w₀ st₀ heard s w st := by
  induction t with
  | takes here' live free next =>
    obtain ⟨rfl, idle, turn⟩ := Tends.taken sound here attends here' live free next
    exact turn.tending waiting idle (.start free)
  | goes t here' live h ih =>
    obtain ⟨w, there, known⟩ := ih rfl
    rw [here'] at there
    cases there
    have turn : Turn r id _ _ _ _ _ _ _ :=
      .of_absorb known.sound here' known.joined live.going (.go live h) (Connection.step?_frank h)
    exact turn.tending waiting known.idle (known.handling.step h)
  | aside t h here' there stirs ih =>
    obtain ⟨w, here'', known⟩ := ih rfl
    rw [here'] at here''
    cases here''
    exact ⟨_, there, h.sound known.sound, stirs.exit.trans known.going, stirs.joined known.joined,
      known.idle, known.handling.stir stirs.connection⟩

/-- **The last step** with a change. -/
theorem Tends.last {o : Outcome} (t : Tends r id change s₀ st₀ heard (some o) s' st') :
    ∃ s₁ st₁ w v moved, Amid r id change s₀ st₀ s₁ st₁ ∧ moved.2 = some o ∧
      Turn r id s₁ st₁ w v moved s' st' ∧ w₀.connection.Idle ∧
      Connection.Handling r w₀.connection change st₀ heard moved st' := by
  generalize done : some o = outcome at t
  cases t with
  | takes here' live free next =>
    obtain ⟨rfl, idle, turn⟩ := Tends.taken sound here attends here' live free next
    exact ⟨s₀, _, _, _, _, .inl rfl, rfl, turn, idle, .start free⟩
  | goes t here' live h =>
    obtain ⟨w, there, known⟩ := Tends.tending sound here attends t rfl
    rw [here'] at there
    cases there
    exact ⟨_, _, _, _, _, .inr ⟨_, t⟩, rfl,
      .of_absorb known.sound here' known.joined live.going (.go live h) (Connection.step?_frank h),
      known.idle, known.handling.step h⟩
  | aside => cases done

/-- **Whatever happens to the service**, the worker goes on with its change. -/
theorem Tends.step {notes : List Note} (t : Tends r id change s₀ st₀ heard none s st)
    (h : Step r s st notes s' st') :
    ∃ heard' outcome, Tends r id change s₀ st₀ (heard ++ heard') outcome s' st' := by
  obtain ⟨w, here', known⟩ := Tends.tending sound here attends t rfl
  have busy := known.handling.isSome
  rcases h.stirs_or_does known.sound here' with ⟨w', there, stirs⟩ | ⟨deeds, v, does, rfl⟩
  · refine ⟨[], none, ?_⟩
    rw [List.append_nil]
    exact t.aside h here' there stirs
  · -- with a change in hand no other one is taken
    cases does with
    | take _ free =>
      rw [free] at busy
      cases busy
    | go live hs => exact ⟨_, _, t.goes here' live hs⟩
    | dry _ free =>
      rw [free] at busy
      cases busy

end Dealing

/-! ### Connections that are taken out -/

/-- A connection is taken out of the service; with the last one the source is told to let its
listener go. -/
structure Ousts (s : Service) (id : ConnectionId) (s' : Service) : Prop where
  there : s.store.contains id = true
  gone : s'.store.contains id = false
  listening : s'.status.listening = true ↔ s.store.ids ≠ [id]
  source : s'.store.fanout.source =
    if s.store.ids = [id] then s.store.fanout.source.detach else s.store.fanout.source

/-- **To take a connection out.** -/
theorem Sound.ousts (sound : s.Sound) (there : s.store.contains id = true)
    (store : s'.store = (s.store.unregister id).2) : s.Ousts id s' := by
  have empty := sound.store.erase_isEmpty_iff there
  refine ⟨there, ?_, ?_, ?_⟩
  · rw [store]
    exact Store.contains_unregister_self id
  · rw [status, store, sound.store.unregister_eq there, ne_eq, ← empty]
    simp
  · rw [store, sound.store.unregister_eq there]
    simp only [empty]

/-- A worker that loses its session is taken out with it. -/
theorem Turn.ousts {w v : Worker} {moved : Connection.Moved}
    (h : Turn r id s st w v moved s' st') (lost : moved.2 = some .invalidated) :
    s.Ousts id s' := by
  have fed : w.isFed = true := h.joined.trans (h.frank.present lost)
  have there : s.store.contains id = true := (h.sound.fed id w h.here).symm.trans fed
  have tells : v.farewell? = some .invalidated := by
    rw [Worker.farewell?, h.exit, lost]
    rfl
  refine h.sound.ousts there ?_
  rw [h.service, worked_eq, tells, there]
  rfl

/-- A step of one worker leaves the registration and the session of every other connection as they
are. -/
theorem session?_step?_ne (h : s.step? r id st = some (s', st')) {j : ConnectionId}
    (other : j ≠ id) : s'.session? j = s.session? j := by
  have registered : s'.store.contains j = s.store.contains j := by
    obtain ⟨w, deeds, w', -, -, rfl⟩ := step?_iff.mp h
    rw [worked_eq]
    split
    · exact Store.contains_unregister_ne other
    · rfl
  rw [session?, session?, registered, worker?_step?_ne h other]

/-! ### What comes of a change -/

/-- What comes of a change that the worker `w` takes up in a service `s`, once it has been dealt
with: then the service is `s'`, and the worker `w'`. -/
structure Dealt {σ : Type} (r : Resolver σ) (id : ConnectionId) (change : Change) (s : Service)
    (st : σ) (w : Worker) (heard : List Answer) (o : Outcome) (s' : Service) (st' : σ)
    (w' : Worker) : Prop where
  /-- A change is given up only where the client is gone. -/
  gone : o = .discarded → w'.connection.isGone = true
  /-- The session is over exactly where its entry file is lost. -/
  over_iff : o ≠ .discarded →
    (w'.connection.session.active = false ↔ w.connection.session.Loses change heard)
  /-- The client is told that the entry file is not found. -/
  told : o ≠ .discarded → w.connection.session.Loses change heard →
    ∃ p, (p == w.connection.session.entry) = true ∧
      s'.messagesOf id = s.messagesOf id ++
        [.updateStart, .error ⟨.notFound, (UpdateFault.entryLost p).message, some p.text, none⟩,
          .updateDone]
  /-- After that it is sent nothing, and it is not taken in again. -/
  silent : o ≠ .discarded → w.connection.session.Loses change heard →
    ∀ log s'' st'', Run r s' st' log s'' st'' →
      s''.messagesOf id = s'.messagesOf id ∧ s''.store.contains id = false
  /-- The connection is taken out with the last step of its worker. -/
  ousted : o ≠ .discarded → w.connection.session.Loses change heard →
    ∃ s₁ st₁, Amid r id change s st s₁ st₁ ∧ s₁.step? r id st₁ = some (s', st') ∧ s₁.Ousts id s'
  /-- No step of the worker concerns another session. -/
  apart : ∀ (s₁ s₂ : Service) (st₁ st₂ : σ), s₁.step? r id st₁ = some (s₂, st₂) →
    ∀ j ≠ id, s₂.session? j = s₁.session? j

/-- **When a session ends, and what comes of it.**  In every state that a service comes to, a worker
that takes up a change ends its session exactly where the entry file is lost with it, unless its
client has left meanwhile.  Then the client is told so and nothing more, its connection is taken out,
and all other sessions are as they were. -/
theorem Course.dealt {endpoint : Endpoint} (places : r.Places)
    (course : Course r endpoint st₀ s st) {w : Worker} (here : s.worker? id = some w) {o : Outcome}
    (tends : Tends r id change s st heard (some o) s' st') :
    ∃ w', s'.worker? id = some w' ∧ Dealt r id change s st w heard o s' st' w' := by
  obtain ⟨s₁, st₁, w₁, v, moved, amid, outcome, turn, idle, handling⟩ :=
    tends.last course.sound here (course.attends places here)
  have connection : v.heard.connection.session = moved.1.session ∧
      v.heard.connection.sink = moved.1.sink ∧
      (moved.1.isGone = true → v.heard.connection.isGone = true) := by
    rw [← turn.connection, Worker.heard]
    split
    · exact ⟨rfl, rfl, fun _ => rfl⟩
    · exact ⟨rfl, rfl, fun gone => gone⟩
  obtain ⟨session, sink, gone⟩ := connection
  -- either the entry file is lost and the session is over, or the worker waits for the next change
  have ends (stays : o ≠ .discarded) := handling.traced.lost_or_kept idle (handling.placed places)
    (outcome ▸ Option.some_ne_none o) (outcome ▸ fun same => stays (Option.some.inj same))
  have lost (stays : o ≠ .discarded) (loses : w.connection.session.Loses change heard) :
      w.connection.Ousted moved := by
    rcases ends stays with ⟨-, ousted⟩ | ⟨kept, -⟩
    · exact ousted
    · exact absurd loses kept
  refine ⟨v.heard, turn.worker?, fun discarded => ?_, fun stays => ?_, fun stays loses => ?_,
    fun stays loses log s'' st'' run => ⟨?_, ?_⟩, fun stays loses => ?_,
    fun _ _ _ _ h _ other => session?_step?_ne h other⟩
  · exact gone (turn.frank.gone (outcome.trans (congrArg some discarded)))
  · rw [session]
    rcases ends stays with ⟨loses, ousted⟩ | ⟨kept, waits⟩
    · simp [loses, ousted.session]
    · simp [kept, waits.idle.active]
  · obtain ⟨p, entry, sent⟩ := (lost stays loses).sent
    refine ⟨p, entry, ?_⟩
    rw [messagesOf, messagesOf, turn.worker?, here, Option.map_some, sink, sent]
    rfl
  · have stopped : v.heard.exit.isSome = true := by
      rw [Worker.heard_exit, turn.exit, (lost stays loses).outcome]
      rfl
    exact run.messagesOf_of_stopped turn.sound' turn.worker? stopped
  · have ousts := turn.ousts (lost stays loses).outcome
    exact run.gone (turn.sound'.lt_nextId turn.worker?) ousts.gone
  · exact ⟨s₁, st₁, amid, turn.step?, turn.ousts (lost stays loses).outcome⟩

end Service

namespace Sample

/-- The entry file is deleted. -/
def loss : Change := ⟨.deleted, entry⟩

/-- The only client is served, and its worker is told of the deletion. -/
theorem client_bereft :
    ∃ s w, Service.Course Tree.resolver {} tree s tree ∧ s.worker? 1 = some w ∧ w.Live ∧
      w.queue = [loss] ∧ w.connection = client := by
  obtain ⟨g, source, found, enrolled, same⟩ := client_enrolled
  have sound : ({} : Service).Sound := .new {}
  have orderly := Search.orderly_hears tree.showsFrom tree_apart (Tree.resolver.bound tree)
    (Search.start "ios" entry)
  have taken : Service.Course Tree.resolver {} tree
      (({} : Service).enrol "ios" entry {} (.ok g)).2 tree :=
    .enrol .start (Search.answered_of_discover found) (fun _ _ mem => orderly.path mem) {}
  have here := sound.worker?_admitted_self source (recruit g)
  have there : (({} : Service).admitted source (recruit g)).store.contains 1 = true :=
    Store.contains_joined (s := ({} : Service).store) source () 1
  rw [enrolled] at taken
  have started := taken.step (.start 1) rfl
  have offered := started.step (.emit loss) (by simp [Service.handedOut, Service.offers,
    Service.Note.number?])
  refine ⟨_, { recruit g with isStarted := true, queue := [loss] }, offered, ?_, ⟨rfl, rfl⟩, rfl,
    same⟩
  rw [started.sound.worker?_emit, Service.start, Service.worker?_onWorker_self]
  exact (if_pos there).trans (congrArg _ (congrArg _ here))

/-- The deletion of the entry file ends the session of the only client. -/
theorem loss_dealt :
    ∃ s w s' w', Service.Course Tree.resolver {} tree s tree ∧ s.worker? 1 = some w ∧
      Service.Tends Tree.resolver 1 loss s tree [] (some .invalidated) s' tree ∧
      s'.worker? 1 = some w' ∧
      Service.Dealt Tree.resolver 1 loss s tree w [] .invalidated s' tree w' ∧
      (s'.messagesOf 1).map Message.kind = ["update-start", "error", "update-done"] ∧
      s'.store.contains 1 = false := by
  obtain ⟨s, w, course, here, live, queue, same⟩ := client_bereft
  have outcome : (w.connection.handle loss).2 = some .invalidated := by
    rw [same]
    decide +kernel
  have free : w.connection.cycle = none := by
    rw [same]
    rfl
  have tends : Service.Tends Tree.resolver 1 loss s tree [] (w.connection.handle loss).2 _ tree :=
    .takes here live free queue
  rw [outcome] at tends
  obtain ⟨w', there, dealt⟩ := course.dealt Tree.resolver_places here tends
  have loses : w.connection.session.Loses loss [] := by
    rw [same]
    exact .deleted rfl (by decide +kernel)
  obtain ⟨p, -, told⟩ := dealt.told nofun loses
  have silent : s.messagesOf 1 = [] := by
    rw [Service.messagesOf, here, Option.map_some, same]
    rfl
  refine ⟨s, w, _, w', course, here, tends, there, dealt, ?_, ?_⟩
  · rw [told, silent]
    rfl
  · exact (dealt.silent nofun loses _ _ _ .start).2

end Sample

end HotReload
