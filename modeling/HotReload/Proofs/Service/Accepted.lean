import HotReload.Proofs.Service.Course

/-!
# What was accepted

The messages that a client's sink has accepted stay, and more are added to them, until its worker
stops.  No step of the service takes one back, and a worker that has stopped sends nothing more.

* `Connection.step?_adds`, `Connection.handle_adds`: what a connection does adds to what was
  accepted.
* `Worker.Advances`: what can become of a worker.
* `Service.Step.advances`, `Service.Run.advances`: what becomes of it in a service.
-/

namespace HotReload

/-! ### Connections -/

namespace Connection

/-- What was accepted before a step is accepted after it. -/
def Moved.Adds (accepted : List Message) (moved : Moved) : Prop :=
  accepted <+: moved.1.sink.accepted

variable {accepted : List Message}

theorem send_adds {c : Connection} {m : Message} {next : Connection → Moved}
    (here : accepted <+: c.sink.accepted)
    (then_ : ∀ c' : Connection, accepted <+: c'.sink.accepted → (next c').Adds accepted) :
    (c.send m next).Adds accepted := by
  rcases send_cases c m next with gone | ⟨sink, took, sent⟩
  · rw [gone]
    exact here
  · rw [sent]
    refine then_ { c with sink } ?_
    rw [Sink.accepted_of_accept? took]
    exact here.trans (List.prefix_append _ _)

theorem conclude_adds {c : Connection} (here : accepted <+: c.sink.accepted)
    (result : Except UpdateFault (Option Payload)) : (c.conclude result).Adds accepted := by
  generalize ended : c.conclude result = moved
  cases ended ▸ c.conclude_ends result with
  | sent took =>
    rw [Moved.Adds, took.accepted]
    exact here.trans (List.prefix_append _ _)
  | left _ took =>
    rw [Moved.Adds, took.accepted]
    exact here.trans (List.prefix_append _ _)

theorem act_adds {c : Connection} (here : accepted <+: c.sink.accepted) (reaction : Reaction) :
    (c.act reaction).Adds accepted := by
  cases reaction with
  | irrelevant => exact conclude_adds here _
  | deleted => exact conclude_adds here _
  | rebuild =>
    simp only [act]
    split
    · exact conclude_adds here _
    · exact here

theorem advance_adds {c : Connection} (here : accepted <+: c.sink.accepted) (change : Change)
    (progress : Progress) : (c.advance change progress).Adds accepted := by
  match progress with
  | .probing probe => exact here
  | .settled (.error fault) => exact conclude_adds here _
  | .settled (.ok (g, reaction)) =>
    exact act_adds (c := { c with session := { c.session with graph := g } }) here reaction

theorem handle_adds (c : Connection) (change : Change) :
    (c.handle change).Adds c.sink.accepted := by
  unfold handle
  split
  · exact List.prefix_rfl
  · split
    · exact List.prefix_rfl
    · exact send_adds List.prefix_rfl fun c' here => advance_adds here change _

theorem step?_adds {σ : Type} {r : Resolver σ} {c : Connection} {st st' : σ} {moved : Moved}
    (h : c.step? r st = some (moved, st')) : moved.Adds c.sink.accepted := by
  unfold step? at h
  split at h
  · cases h
  · cases h
    exact advance_adds List.prefix_rfl _ _
  · cases h
    exact List.prefix_rfl
  · split at h
    · cases h
    · next answer _ _ =>
      cases h
      cases answer <;> exact conclude_adds List.prefix_rfl _

end Connection

/-- A step of a worker adds to what was accepted. -/
theorem Worker.Does.adds {σ : Type} {r : Resolver σ} {w w' : Worker} {st st' : σ}
    {deeds : List Deed} (h : w.Does r st deeds w' st') :
    w.connection.sink.accepted <+: w'.connection.sink.accepted := by
  cases h with
  | take =>
    rw [absorb_connection]
    exact Connection.handle_adds _ _
  | go _ h =>
    rw [absorb_connection]
    exact Connection.step?_adds h
  | dry => exact List.prefix_rfl

/-! ### Services -/

/-- What can become of a worker: what was accepted stays, and nothing is added once it has
stopped. -/
structure Worker.Advances (w w' : Worker) : Prop where
  accepted : w.connection.sink.accepted <+: w'.connection.sink.accepted
  stopped : w.exit.isSome = true →
    w'.exit.isSome = true ∧ w'.connection.sink.accepted = w.connection.sink.accepted

namespace Worker.Advances

variable {w w₁ w' : Worker}

theorem refl (w : Worker) : w.Advances w := ⟨List.prefix_rfl, fun stopped => ⟨stopped, rfl⟩⟩

theorem trans (h : w.Advances w₁) (h' : w₁.Advances w') : w.Advances w' where
  accepted := h.accepted.trans h'.accepted
  stopped stopped := by
    obtain ⟨stopped₁, same₁⟩ := h.stopped stopped
    obtain ⟨stopped', same'⟩ := h'.stopped stopped₁
    exact ⟨stopped', same'.trans same₁⟩

theorem of_stirs {σ : Type} {st st' : σ} (h : w.Stirs st w' st') : w.Advances w' := by
  obtain ⟨isAlive, isOpen, limit, -, same⟩ := h.connection.frame
  have accepted : w'.connection.sink.accepted = w.connection.sink.accepted := by rw [same]
  exact ⟨accepted ▸ List.prefix_rfl, fun stopped => ⟨h.exit ▸ stopped, accepted⟩⟩

/-- A worker that takes a step has not stopped. -/
theorem of_does {σ : Type} {r : Resolver σ} {st st' : σ} {deeds : List Deed}
    (h : w.Does r st deeds w' st') : w.Advances w' := by
  refine ⟨h.adds, fun stopped => ?_⟩
  rw [h.live.going] at stopped
  cases stopped

theorem heard (w : Worker) : w.Advances w.heard := by
  rw [Worker.heard]
  split
  · exact ⟨List.prefix_rfl, fun stopped => ⟨stopped, rfl⟩⟩
  · exact refl w

end Worker.Advances

namespace Service

variable {σ : Type} {r : Resolver σ} {s s' : Service} {st st' : σ} {log notes : List Note}
  {id : ConnectionId} {w : Worker}

/-- **In a step of the service**, whatever it is, a worker advances. -/
theorem Step.advances (sound : s.Sound) (h : Step r s st notes s' st')
    (here : s.worker? id = some w) : ∃ w', s'.worker? id = some w' ∧ w.Advances w' := by
  rcases h.stirs_or_does sound here with ⟨w', there, stirs⟩ | ⟨deeds, w', does, rfl⟩
  · exact ⟨w', there, .of_stirs stirs⟩
  · exact ⟨w'.heard, sound.worker?_worked here does,
      (Worker.Advances.of_does does).trans (.heard w')⟩

theorem Run.advances (run : Run r s st log s' st') (sound : s.Sound)
    (here : s.worker? id = some w) : ∃ w', s'.worker? id = some w' ∧ w.Advances w' := by
  induction run with
  | start => exact ⟨w, here, .refl w⟩
  | step t h ih =>
    obtain ⟨w₁, here₁, advances₁⟩ := ih
    obtain ⟨w', here', advances'⟩ := h.advances (t.sound sound) here₁
    exact ⟨w', here', advances₁.trans advances'⟩

theorem messagesOf_of_worker? (here : s.worker? id = some w) :
    s.messagesOf id = w.connection.sink.accepted := by
  rw [messagesOf, here]
  rfl

/-- **A worker that has stopped** sends nothing more. -/
theorem Run.messagesOf_of_stopped (run : Run r s st log s' st') (sound : s.Sound)
    (here : s.worker? id = some w) (stopped : w.exit.isSome = true) :
    s'.messagesOf id = s.messagesOf id := by
  obtain ⟨w', here', advances⟩ := run.advances sound here
  rw [messagesOf_of_worker? here', messagesOf_of_worker? here]
  exact (advances.stopped stopped).2

end Service

end HotReload
