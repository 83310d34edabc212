import HotReload.Proofs.Http.Disclosure
import HotReload.Proofs.Service.Accepted

/-!
# What a socket writes

The loop of a socket takes up whatever is there: a message that was accepted for its client, or
something that the client sent.  In whatever order it does so, and whatever the service does
meanwhile, it writes the messages in the order in which they were accepted, one frame for each.  It
says that it is done only when all is written and nobody is left to send more; and however it is
left, its connection is no longer registered.

* `Server.Step`, `Server.Run`: everything that can happen to a server, in any order;
  `Server.Run.play`: what is played is a run.
* `Server.Step.moves`: what a step does; `Server.Moves.turn`: what it does to a socket.
* `Socket.Follows`: what a socket has written of what a worker has sent.
* `Server.Run.relays`: what a socket has written at any moment of a run.
-/

namespace HotReload.Http

/-! ### Sockets -/

/-- The text of a text frame. -/
def Frame.text? : Frame → Option String
  | .text content => some content
  | _ => none

namespace Socket

/-- The texts that a socket has written. -/
def texts (k : Socket) : List String := k.written.filterMap Frame.text?

theorem texts_write (k : Socket) (frame : Frame) :
    (k.write frame).texts = k.texts ++ frame.text?.toList := by
  rw [texts, write, List.filterMap_append]
  cases frame <;> rfl

/-- What a socket has written of what a worker has sent. -/
structure Follows (w : Worker) (k : Socket) : Prop where
  le : k.forwarded ≤ w.connection.sink.accepted.length
  texts : k.texts = (w.connection.sink.accepted.take k.forwarded).map Message.wire
  unclosed : k.isOpen = true → Frame.close ∉ k.written
  closed : Frame.close ∈ k.written → w.exit.isSome = true ∧
    k.forwarded = w.connection.sink.accepted.length ∧
    ∃ front, k.written = front ++ [.close] ∧ Frame.close ∉ front

namespace Follows

variable {w w' : Worker} {k : Socket}

theorem new (w : Worker) : Follows w {} where
  le := Nat.zero_le _
  texts := rfl
  unclosed _ := List.not_mem_nil
  closed closed := absurd closed List.not_mem_nil

/-- Whatever the worker does, what is written stays the beginning of what it has sent. -/
theorem advances (h : k.Follows w) (advances : w.Advances w') : k.Follows w' where
  le := Nat.le_trans h.le advances.accepted.length_le
  texts := by
    rw [h.texts]
    obtain ⟨more, same⟩ := advances.accepted
    rw [← same, List.take_append_of_le_length h.le]
  unclosed := h.unclosed
  closed closed := by
    obtain ⟨stopped, all, last⟩ := h.closed closed
    obtain ⟨stopped', same⟩ := advances.stopped stopped
    exact ⟨stopped', same ▸ all, last⟩

/-- The next message is written. -/
theorem text (h : k.Follows w) (isOpen : k.isOpen = true) {m : Message} {rest : List Message}
    (next : w.connection.sink.accepted.drop k.forwarded = m :: rest) :
    Follows w { k.write (.text m.wire) with forwarded := k.forwarded + 1 } := by
  have unclosed : Frame.close ∉ k.written ++ [Frame.text m.wire] := by
    simpa using h.unclosed isOpen
  have here : w.connection.sink.accepted[k.forwarded]? = some m := by
    rw [← List.head?_drop, next]
    rfl
  refine ⟨(List.getElem?_eq_some_iff.mp here).1, ?_, fun _ => unclosed,
    fun closed => absurd closed unclosed⟩
  rw [List.take_add_one, here, List.map_append, ← h.texts]
  exact k.texts_write _

/-- A frame that is neither a message nor the last one. -/
theorem pong (h : k.Follows w) (isOpen : k.isOpen = true) (payload : String) :
    Follows w (k.write (.pong payload)) := by
  have unclosed : Frame.close ∉ k.written ++ [Frame.pong payload] := by
    simpa using h.unclosed isOpen
  refine ⟨h.le, ?_, fun _ => unclosed, fun closed => absurd closed unclosed⟩
  rw [texts_write, h.texts]
  exact List.append_nil _

/-- All is written, and the worker has stopped. -/
theorem ends (h : k.Follows w) (isOpen : k.isOpen = true)
    (all : w.connection.sink.accepted.drop k.forwarded = []) (stopped : w.exit.isSome = true) :
    Follows w { k.write .close with isOpen := false } where
  le := h.le
  texts := by
    refine (k.texts_write .close).trans ?_
    rw [h.texts]
    exact List.append_nil _
  unclosed back := by cases back
  closed _ :=
    ⟨stopped, Nat.le_antisymm h.le (List.drop_eq_nil_iff.mp all), k.written, rfl,
      h.unclosed isOpen⟩

theorem left (h : k.Follows w) : Follows w { k with isOpen := false } :=
  { h with unclosed := fun back => by cases back }

end Follows

end Socket

namespace Server

/-! ### What can happen -/

/-- What can happen to a server.  A client gets its connection from the service, and its socket
after that. -/
inductive Step {σ : Type} (r : Resolver σ) (s : Server) (st : σ) : Server → σ → Prop where
  /-- A connection gets its socket. -/
  | upgrade {id : ConnectionId} (known : (s.service.worker? id).isSome = true)
      (new : Assoc.get? s.sockets id = none) :
      Step r s st { s with sockets := s.sockets ++ [(id, {})] } st
  | receive (id : ConnectionId) (incoming : Incoming) : Step r s st (s.receive id incoming) st
  | forward {id : ConnectionId} {s' : Server} (h : s.forward? id = some s') : Step r s st s' st
  | falter {id : ConnectionId} {s' : Server} (h : s.falter? id = some s') : Step r s st s' st
  /-- Some message is accepted for a client whose worker has not stopped. -/
  | post {id : ConnectionId} {w : Worker} {m : Message} {sink : Sink}
      (here : s.service.worker? id = some w) (going : w.exit = none)
      (h : w.connection.sink.accept? m = some sink) :
      Step r s st { s with service := s.service.onSink id fun _ => sink } st
  /-- Something happens to the service, or to the files. -/
  | serve {notes : List Service.Note} {service : Service} {st' : σ}
      (h : Service.Step r s.service st notes service st') : Step r s st { s with service } st'

/-- Any number of steps. -/
inductive Run {σ : Type} (r : Resolver σ) (s₀ : Server) (st₀ : σ) : Server → σ → Prop where
  | start : Run r s₀ st₀ s₀ st₀
  | step {s s' : Server} {st st' : σ} (t : Run r s₀ st₀ s st) (h : Step r s st s' st') :
      Run r s₀ st₀ s' st'

/-- What a step does, by what its socket finds. -/
inductive Moves {σ : Type} (r : Resolver σ) (s : Server) (st : σ) : Server → σ → Prop where
  | still : Moves r s st s st
  | upgrade {id : ConnectionId} (known : (s.service.worker? id).isSome = true)
      (new : Assoc.get? s.sockets id = none) :
      Moves r s st { s with sockets := s.sockets ++ [(id, {})] } st
  | text {id : ConnectionId} {k : Socket} {m : Message} {rest : List Message}
      (here : Assoc.get? s.sockets id = some k) (isOpen : k.isOpen = true)
      (next : s.pending id k = m :: rest) :
      Moves r s st
        (s.onSocket id fun k => { k.write (.text m.wire) with forwarded := k.forwarded + 1 }) st
  | pong {id : ConnectionId} {k : Socket} (here : Assoc.get? s.sockets id = some k)
      (isOpen : k.isOpen = true) (payload : String) :
      Moves r s st (s.onSocket id (·.write (.pong payload))) st
  /-- All is written and nobody is left to send more. -/
  | ends {id : ConnectionId} {k : Socket} (here : Assoc.get? s.sockets id = some k)
      (isOpen : k.isOpen = true) (all : s.pending id k = []) (unfed : s.isFed id = false) :
      Moves r s st ((s.onSocket id (·.write .close)).leave id) st
  /-- The client is gone, or a frame cannot be written. -/
  | leaves {id : ConnectionId} {k : Socket} (here : Assoc.get? s.sockets id = some k)
      (isOpen : k.isOpen = true) : Moves r s st (s.leave id) st
  | post {id : ConnectionId} {w : Worker} {m : Message} {sink : Sink}
      (here : s.service.worker? id = some w) (going : w.exit = none)
      (h : w.connection.sink.accept? m = some sink) :
      Moves r s st { s with service := s.service.onSink id fun _ => sink } st
  | serve {notes : List Service.Note} {service : Service} {st' : σ}
      (h : Service.Step r s.service st notes service st') : Moves r s st { s with service } st'

section Steps

variable {σ : Type} {r : Resolver σ} {s s' : Server} {st st' : σ} {id j : ConnectionId} {k : Socket}

theorem Moves.receive (r : Resolver σ) (s : Server) (id : ConnectionId) (incoming : Incoming)
    (st : σ) : Moves r s st (s.receive id incoming) st := by
  unfold Server.receive
  split
  · exact .still
  · next k here =>
    split
    · exact .still
    · next isOpen =>
      simp only [Bool.not_eq_true', Bool.not_eq_false] at isOpen
      cases incoming with
      | note => exact .still
      | ping payload => exact .pong here isOpen payload
      | close => exact .leaves here isOpen
      | lost => exact .leaves here isOpen

theorem Moves.forward (h : s.forward? id = some s') : Moves r s st s' st := by
  unfold Server.forward? at h
  split at h
  · cases h
  · next k here =>
    split at h
    · cases h
    · next isOpen =>
      simp only [Bool.not_eq_true', Bool.not_eq_false] at isOpen
      split at h
      · next m rest next =>
        cases h
        exact .text here isOpen next
      · next all =>
        split at h
        · cases h
        · next unfed =>
          cases h
          exact .ends here isOpen all (Bool.not_eq_true _ ▸ unfed)

theorem Moves.falter (h : s.falter? id = some s') : Moves r s st s' st := by
  unfold Server.falter? at h
  split at h
  · cases h
  · next k here =>
    split at h
    · next ready =>
      cases h
      exact .leaves here (Bool.and_eq_true_iff.mp ready).1
    · cases h

theorem Step.moves (h : Step r s st s' st') : Moves r s st s' st' := by
  cases h with
  | upgrade known new => exact .upgrade known new
  | receive id incoming => exact .receive r s id incoming st
  | forward h => exact .forward h
  | falter h => exact .falter h
  | post here going h => exact .post here going h
  | serve h => exact .serve h

/-! ### Sockets in a step -/

theorem onSocket_self (s : Server) (id : ConnectionId) (f : Socket → Socket) :
    Assoc.get? (s.onSocket id f).sockets id = (Assoc.get? s.sockets id).map f :=
  Assoc.get?_modify_self f

theorem onSocket_ne (s : Server) (f : Socket → Socket) (other : j ≠ id) :
    Assoc.get? (s.onSocket id f).sockets j = Assoc.get? s.sockets j :=
  Assoc.get?_modify_ne f other

theorem leave_sockets (s : Server) (id : ConnectionId) :
    (s.leave id).sockets = (s.onSocket id fun k => { k with isOpen := false }).sockets := rfl

theorem close_leave_sockets (s : Server) (id : ConnectionId) :
    ((s.onSocket id (·.write .close)).leave id).sockets =
      (s.onSocket id fun k => { k.write .close with isOpen := false }).sockets :=
  Assoc.modify_modify (Socket.write · .close) fun k => { k with isOpen := false }

theorem leave_ids (s : Server) (id : ConnectionId) :
    (s.leave id).service.store.ids = s.service.store.ids.filter (· != id) := by
  rw [leave, Service.disconnect_store]
  exact Store.ids_unregister s.service.store id

/-- What a step can do to a socket. -/
inductive Turn (s : Server) (id : ConnectionId) (k : Socket) (s' : Server) : Socket → Prop where
  | still : Turn s id k s' k
  | text {m : Message} {rest : List Message} (isOpen : k.isOpen = true)
      (next : s.pending id k = m :: rest) :
      Turn s id k s' { k.write (.text m.wire) with forwarded := k.forwarded + 1 }
  | pong (isOpen : k.isOpen = true) (payload : String) : Turn s id k s' (k.write (.pong payload))
  | ends (isOpen : k.isOpen = true) (all : s.pending id k = []) (unfed : s.isFed id = false)
      (out : s'.service.store.ids = s.service.store.ids.filter (· != id)) :
      Turn s id k s' { k.write .close with isOpen := false }
  | left (isOpen : k.isOpen = true)
      (out : s'.service.store.ids = s.service.store.ids.filter (· != id)) :
      Turn s id k s' { k with isOpen := false }

/-- A change of one socket. -/
theorem Turn.onSocket {f : Socket → Socket} {k₀ : Socket}
    (there : Assoc.get? s.sockets j = some k₀) (here : Assoc.get? s.sockets id = some k)
    (sockets : s'.sockets = (s.onSocket j f).sockets) (turn : Turn s j k₀ s' (f k₀)) :
    ∃ k', Assoc.get? s'.sockets id = some k' ∧ Turn s id k s' k' := by
  rw [sockets]
  by_cases same : id = j
  · subst same
    rw [here, Option.some.injEq] at there
    subst there
    refine ⟨f k, ?_, turn⟩
    rw [onSocket_self, here]
    rfl
  · exact ⟨k, (onSocket_ne s f same).trans here, .still⟩

/-- **What a step does to a socket.** -/
theorem Moves.turn (h : Moves r s st s' st') (here : Assoc.get? s.sockets id = some k) :
    ∃ k', Assoc.get? s'.sockets id = some k' ∧ Turn s id k s' k' := by
  cases h with
  | still => exact ⟨k, here, .still⟩
  | @upgrade j known new =>
    have other : id ≠ j := by
      rintro rfl
      rw [here] at new
      cases new
    exact ⟨k, (Assoc.get?_append_ne other).trans here, .still⟩
  | text there isOpen next => exact Turn.onSocket there here rfl (.text isOpen next)
  | pong there isOpen payload => exact Turn.onSocket there here rfl (.pong isOpen payload)
  | @ends j _ there isOpen all unfed =>
    exact Turn.onSocket there here (close_leave_sockets s j)
      (.ends isOpen all unfed (leave_ids _ j))
  | @leaves j _ there isOpen =>
    exact Turn.onSocket there here (leave_sockets s j) (.left isOpen (leave_ids s j))
  | post => exact ⟨k, here, .still⟩
  | serve => exact ⟨k, here, .still⟩

theorem onSocket_keys (s : Server) (id : ConnectionId) (f : Socket → Socket) :
    (s.onSocket id f).sockets.map (·.1) = s.sockets.map (·.1) :=
  Assoc.keys_modify f

/-- A step gives a socket to a connection that is known, or adds none. -/
theorem Moves.keys (h : Moves r s st s' st') :
    (∃ j, (s.service.worker? j).isSome = true ∧ s' = { s with sockets := s.sockets ++ [(j, {})] }) ∨
      s'.sockets.map (·.1) = s.sockets.map (·.1) := by
  cases h with
  | upgrade known => exact .inl ⟨_, known, rfl⟩
  | still => exact .inr rfl
  | text => exact .inr (onSocket_keys s _ _)
  | pong => exact .inr (onSocket_keys s _ _)
  | @ends j =>
    rw [close_leave_sockets]
    exact .inr (onSocket_keys s j _)
  | @leaves j =>
    rw [leave_sockets]
    exact .inr (onSocket_keys s j _)
  | post => exact .inr rfl
  | serve => exact .inr rfl

/-- A socket that was not there is new, and its connection is known. -/
theorem Moves.fresh (h : Moves r s st s' st') (absent : Assoc.get? s.sockets id = none)
    (here : Assoc.get? s'.sockets id = some k) :
    k = {} ∧ ∃ w, s'.service.worker? id = some w := by
  have unknown := Assoc.get?_eq_none_iff.mp absent
  rcases h.keys with ⟨j, known, rfl⟩ | keys
  · by_cases same : id = j
    · subst same
      rw [Assoc.get?_append_self unknown] at here
      exact ⟨(Option.some.inj here).symm, Option.isSome_iff_exists.mp known⟩
    · rw [Assoc.get?_append_ne same, absent] at here
      cases here
  · rw [Assoc.contains_eq_false_iff, ← keys, ← Assoc.contains_eq_false_iff,
      ← Assoc.get?_eq_none_iff, here] at unknown
    cases unknown

/-! ### The service in a step -/

/-- To leave is to close the sink and to take the client out. -/
theorem leave_run (r : Resolver σ) (s : Server) (id : ConnectionId) (st : σ) :
    ∃ log, Service.Run r s.service st log (s.leave id).service st :=
  ⟨_, (Service.Run.start.step (.close id)).step (.disconnect id)⟩

/-- **What a step does to the service**: something happens to it, or a message is accepted. -/
theorem Moves.serves (h : Moves r s st s' st') :
    (∃ log, Service.Run r s.service st log s'.service st') ∨
      ∃ id w m sink, s.service.worker? id = some w ∧ w.exit = none ∧
        w.connection.sink.accept? m = some sink ∧
        s'.service = s.service.onSink id fun _ => sink := by
  cases h with
  | ends => exact .inl (leave_run r _ _ st)
  | leaves => exact .inl (leave_run r s _ st)
  | post here going h => exact .inr ⟨_, _, _, _, here, going, h, rfl⟩
  | serve h => exact .inl ⟨_, Service.Run.start.step h⟩
  | still | upgrade | text | pong => exact .inl ⟨_, .start⟩

theorem Moves.sound (h : Moves r s st s' st') (sound : s.service.Sound) : s'.service.Sound := by
  rcases h.serves with ⟨log, run⟩ | ⟨j, w, m, sink, -, -, -, same⟩
  · exact run.sound sound
  · rw [same]
    exact sound.onSink j _

/-- A worker advances, whatever happens. -/
theorem Moves.advances (h : Moves r s st s' st') (sound : s.service.Sound) {w : Worker}
    (here : s.service.worker? id = some w) :
    ∃ w', s'.service.worker? id = some w' ∧ w.Advances w' := by
  rcases h.serves with ⟨log, run⟩ | ⟨j, v, m, sink, there, going, took, same⟩
  · exact run.advances sound here
  · rw [same, Service.onSink]
    by_cases self : id = j
    · subst self
      rw [here, Option.some.injEq] at there
      subst there
      refine ⟨_, by rw [Service.worker?_onWorker_self, here]; rfl, ?_, fun stopped => ?_⟩
      · exact Sink.accepted_of_accept? took ▸ List.prefix_append _ _
      · rw [going] at stopped
        cases stopped
    · exact ⟨w, (Service.worker?_onWorker_ne _ _ self).trans here, .refl w⟩

/-- A connection that was taken out stays out. -/
theorem Moves.gone (h : Moves r s st s' st') (old : id < s.service.store.nextId)
    (gone : s.service.store.contains id = false) : s'.service.store.contains id = false := by
  rcases h.serves with ⟨log, run⟩ | ⟨j, w, m, sink, -, -, -, same⟩
  · exact run.gone old gone
  · rw [same]
    exact gone

/-! ### Runs -/

/-- What is known of a server: each of its sockets follows a worker, and a connection whose socket
is closed is not registered. -/
structure Tied (s : Server) : Prop where
  sound : s.service.Sound
  follows : ∀ id k, Assoc.get? s.sockets id = some k →
    ∃ w, s.service.worker? id = some w ∧ k.Follows w
  gone : ∀ id k, Assoc.get? s.sockets id = some k → k.isOpen = false →
    s.service.store.contains id = false

theorem Tied.new (root : Path) (endpoint : Endpoint) : Tied { root, service := { endpoint } } where
  sound := .new endpoint
  follows _ _ here := by cases here
  gone _ _ here := by cases here

theorem isFed_of_worker? {w : Worker} (here : s.service.worker? id = some w) :
    s.isFed id = w.exit.isNone := by
  rw [isFed, here]

theorem contains_of_ids {s s' : Service} (out : s'.store.ids = s.store.ids.filter (· != id)) :
    s'.store.contains id = false := by
  rw [← Bool.not_eq_true, ← Store.mem_ids, out]
  simp

/-- A turn of a socket that follows a worker. -/
theorem Turn.follows {k' : Socket} (turn : Turn s id k s' k') {w : Worker}
    (here : s.service.worker? id = some w) (h : k.Follows w) : k'.Follows w := by
  cases turn with
  | still => exact h
  | text isOpen next =>
    rw [pending, Service.messagesOf_of_worker? here] at next
    exact h.text isOpen next
  | pong isOpen payload => exact h.pong isOpen payload
  | ends isOpen all unfed =>
    rw [pending, Service.messagesOf_of_worker? here] at all
    rw [isFed_of_worker? here, Option.isNone_eq_false_iff] at unfed
    exact h.ends isOpen all unfed
  | left => exact h.left

theorem Moves.tied (h : Moves r s st s' st') (tied : s.Tied) : s'.Tied where
  sound := h.sound tied.sound
  follows id k' here' := by
    cases here : Assoc.get? s.sockets id with
    | none =>
      obtain ⟨rfl, w, there⟩ := h.fresh here here'
      exact ⟨w, there, .new w⟩
    | some k =>
      obtain ⟨k₁, there, turn⟩ := h.turn here
      rw [here', Option.some.injEq] at there
      subst there
      obtain ⟨w, there, follows⟩ := tied.follows id k here
      obtain ⟨w', there', advances⟩ := h.advances tied.sound there
      exact ⟨w', there', (turn.follows there follows).advances advances⟩
  gone id k' here' closed := by
    cases here : Assoc.get? s.sockets id with
    | none =>
      obtain ⟨rfl, -⟩ := h.fresh here here'
      cases closed
    | some k =>
      obtain ⟨k₁, there, turn⟩ := h.turn here
      rw [here', Option.some.injEq] at there
      subst there
      obtain ⟨w, there, -⟩ := tied.follows id k here
      have still (closed : k.isOpen = false) : s'.service.store.contains id = false :=
        h.gone (tied.sound.lt_nextId there) (tied.gone id k here closed)
      cases turn with
      | still => exact still closed
      | text => exact still closed
      | pong => exact still closed
      | ends _ _ _ out => exact contains_of_ids out
      | left _ out => exact contains_of_ids out

theorem Run.tied (run : Run r s st s' st') (tied : s.Tied) : s'.Tied := by
  induction run with
  | start => exact tied
  | step _ h ih => exact h.moves.tied ih

/-- A socket that is closed stays as it is. -/
theorem Run.closed (run : Run r s st s' st') (here : Assoc.get? s.sockets id = some k)
    (closed : k.isOpen = false) : Assoc.get? s'.sockets id = some k := by
  induction run with
  | start => exact here
  | step _ h ih =>
    obtain ⟨k', there, turn⟩ := h.moves.turn ih
    cases turn with
    | still => exact there
    | text isOpen | pong isOpen | ends isOpen | left isOpen =>
      rw [closed] at isOpen
      cases isOpen

/-- The connection that the service gives out next has no socket. -/
theorem Tied.unused (tied : s.Tied) : Assoc.get? s.sockets s.service.store.nextId = none := by
  cases here : Assoc.get? s.sockets s.service.store.nextId with
  | none => rfl
  | some k =>
    obtain ⟨w, there, -⟩ := tied.follows _ k here
    exact absurd (tied.sound.lt_nextId there) (Nat.lt_irrefl _)

/-! ### What is written -/

/-- A socket waits where all is written and somebody may send more. -/
theorem forward?_eq_none_iff (here : Assoc.get? s.sockets id = some k) (isOpen : k.isOpen = true) :
    s.forward? id = none ↔ s.pending id k = [] ∧ s.isFed id = true := by
  unfold forward?
  simp only [here, isOpen, Bool.not_true, Bool.false_eq_true, if_false]
  split
  · next next => simp [next]
  · next all =>
    rw [all]
    split
    · next fed => simp [fed]
    · next unfed => simp [unfed]

/-- A socket with nothing more to write ends where nobody is left to send more. -/
theorem forward?_of_all (here : Assoc.get? s.sockets id = some k) (isOpen : k.isOpen = true)
    (all : s.pending id k = []) (unfed : s.isFed id = false) :
    s.forward? id = some ((s.onSocket id (·.write .close)).leave id) := by
  simp [forward?, here, isOpen, all, unfed]

/-- What holds of a socket at some moment, and from then on. -/
structure Relays {σ : Type} (r : Resolver σ) (s : Server) (st : σ) (id : ConnectionId)
    (k : Socket) : Prop where
  /-- The messages that were accepted first are written, in order and one frame for each. -/
  texts : k.texts <+: (s.service.messagesOf id).map Message.wire
  /-- An open socket waits only where all is written and somebody may send more. -/
  waits : k.isOpen = true → s.forward? id = none →
    k.texts = (s.service.messagesOf id).map Message.wire ∧ s.isFed id = true
  /-- Where all is written and nobody may send more, it says so and ends. -/
  ends : k.isOpen = true → s.isFed id = false →
    k.texts = (s.service.messagesOf id).map Message.wire →
    ∃ s', s.forward? id = some s' ∧
      Assoc.get? s'.sockets id = some { k.write .close with isOpen := false }
  /-- It says so only then, once, and writes nothing after it. -/
  last : Frame.close ∈ k.written → k.isOpen = false ∧ s.isFed id = false ∧
    k.texts = (s.service.messagesOf id).map Message.wire ∧
    ∃ front, k.written = front ++ [.close] ∧ Frame.close ∉ front
  /-- A client that says goodbye or is lost and a frame that cannot be written each close an open
  socket, with nothing more written, and take its connection alone out of the service. -/
  exits : k.isOpen = true → ∀ s', s' = s.receive id .close ∨ s' = s.receive id .lost ∨
    s.falter? id = some s' → Assoc.get? s'.sockets id = some { k with isOpen := false } ∧
      s'.service.store.ids = s.service.store.ids.filter (· != id)
  /-- Every frame that can be written can fail to be. -/
  fails : (s.falter? id).isSome = (s.forward? id).isSome
  /-- However a socket is closed, its connection alone is taken out of the service. -/
  leaves : k.isOpen = true → ∀ s' st' k', Step r s st s' st' →
    Assoc.get? s'.sockets id = some k' → k'.isOpen = false →
    s'.service.store.ids = s.service.store.ids.filter (· != id)
  /-- From then on nothing is written to it, and its connection does not count. -/
  stays : k.isOpen = false → ∀ s' st', Run r s st s' st' →
    Assoc.get? s'.sockets id = some k ∧ id ∉ s'.service.store.ids ∧
    s'.service.status.sessions = s'.service.store.ids.length.toUInt64
  /-- What clients send on the way changes nothing, but that a ping is answered. -/
  note : ∀ j, s.receive j .note = s
  ping : ∀ j payload, (s.receive j (.ping payload)).service = s.service ∧
    ∃ k', Assoc.get? (s.receive j (.ping payload)).sockets id = some k' ∧
      (k' = k ∨ k' = k.write (.pong payload)) ∧ k'.texts = k.texts

theorem receive_note (s : Server) (id : ConnectionId) : s.receive id .note = s := by
  unfold receive
  split
  · rfl
  · split <;> rfl

theorem receive_ping (s : Server) (id : ConnectionId) (payload : String) :
    s.receive id (.ping payload) = s ∨
      s.receive id (.ping payload) = s.onSocket id (·.write (.pong payload)) := by
  unfold receive
  split
  · exact .inl rfl
  · split
    · exact .inl rfl
    · exact .inr rfl

/-- A ping is answered on the socket that it comes on. -/
theorem receive_ping_socket (here : Assoc.get? s.sockets id = some k) (j : ConnectionId)
    (payload : String) : ∃ k', Assoc.get? (s.receive j (.ping payload)).sockets id = some k' ∧
      (k' = k ∨ k' = k.write (.pong payload)) ∧ k'.texts = k.texts := by
  rcases receive_ping s j payload with same | same
  · rw [same]
    exact ⟨k, here, .inl rfl, rfl⟩
  · rw [same]
    by_cases self : id = j
    · subst self
      refine ⟨k.write (.pong payload), ?_, .inr rfl, ?_⟩
      · rw [onSocket_self, here]
        rfl
      · rw [Socket.texts_write]
        exact List.append_nil _
    · exact ⟨k, (onSocket_ne s _ self).trans here, .inl rfl, rfl⟩

/-- Nothing is left to write where all that was accepted is written. -/
theorem pending_eq_nil_iff {w : Worker} (there : s.service.worker? id = some w)
    (follows : k.Follows w) :
    s.pending id k = [] ↔ k.texts = (s.service.messagesOf id).map Message.wire := by
  rw [pending, Service.messagesOf_of_worker? there, List.drop_eq_nil_iff, follows.texts]
  constructor
  · intro all
    rw [List.take_of_length_le all]
  · intro all
    have lengths := congrArg List.length all
    rw [List.length_map, List.length_map, List.length_take] at lengths
    omega

/-- To leave closes the socket and takes its connection out. -/
theorem leave_exits (here : Assoc.get? s.sockets id = some k) :
    Assoc.get? (s.leave id).sockets id = some { k with isOpen := false } ∧
      (s.leave id).service.store.ids = s.service.store.ids.filter (· != id) := by
  refine ⟨?_, leave_ids s id⟩
  rw [leave_sockets, onSocket_self, here]
  rfl

/-- A client that says goodbye or is lost and a frame that cannot be written: the loop is left. -/
theorem eq_leave_of_exit (here : Assoc.get? s.sockets id = some k) (isOpen : k.isOpen = true)
    (exit : s' = s.receive id .close ∨ s' = s.receive id .lost ∨ s.falter? id = some s') :
    s' = s.leave id := by
  rcases exit with rfl | rfl | failed
  · simp [receive, here, isOpen]
  · simp [receive, here, isOpen]
  · unfold falter? at failed
    rw [here] at failed
    simp only at failed
    split at failed
    · exact (Option.some.inj failed).symm
    · cases failed

/-- A frame can fail to be written exactly where one can be written. -/
theorem isSome_falter? (s : Server) (id : ConnectionId) :
    (s.falter? id).isSome = (s.forward? id).isSome := by
  unfold falter? forward?
  cases here : Assoc.get? s.sockets id with
  | none => rfl
  | some k =>
    cases isOpen : k.isOpen with
    | false => simp [isOpen]
    | true =>
      cases all : s.pending id k with
      | cons m rest => simp [isOpen, all]
      | nil => cases s.isFed id <;> simp [isOpen, all]

/-- A socket is closed by a step that takes its connection out. -/
theorem Moves.out (h : Moves r s st s' st') {k' : Socket}
    (here : Assoc.get? s.sockets id = some k) (isOpen : k.isOpen = true)
    (here' : Assoc.get? s'.sockets id = some k') (closed : k'.isOpen = false) :
    s'.service.store.ids = s.service.store.ids.filter (· != id) := by
  obtain ⟨k₁, there, turn⟩ := h.turn here
  rw [here', Option.some.injEq] at there
  subst there
  cases turn with
  | still | text | pong => cases isOpen.symm.trans closed
  | ends _ _ _ out => exact out
  | left _ out => exact out

/-- **What a socket has written** at any moment. -/
theorem Tied.relay (tied : s.Tied) (r : Resolver σ) (st : σ)
    (here : Assoc.get? s.sockets id = some k) : Relays r s st id k := by
  obtain ⟨w, there, follows⟩ := tied.follows id k here
  have all_iff := pending_eq_nil_iff there follows
  have messages := Service.messagesOf_of_worker? there
  refine ⟨?_, fun isOpen waits => ?_, fun isOpen unfed all => ?_, fun closed => ?_,
    fun isOpen s' exit => ?_, isSome_falter? s id,
    fun isOpen s' st' k' h here' closed => h.moves.out here isOpen here' closed,
    fun closed s' st' run => ?_, receive_note s,
    fun j payload => ⟨?_, receive_ping_socket here j payload⟩⟩
  · rw [follows.texts, messages]
    exact (List.take_prefix _ _).map Message.wire
  · obtain ⟨all, fed⟩ := (forward?_eq_none_iff here isOpen).mp waits
    exact ⟨all_iff.mp all, fed⟩
  · refine ⟨_, forward?_of_all here isOpen (all_iff.mpr all) unfed, ?_⟩
    rw [close_leave_sockets, onSocket_self, here]
    rfl
  · obtain ⟨stopped, all, last⟩ := follows.closed closed
    have shut : k.isOpen = false := by
      rw [← Bool.not_eq_true]
      exact fun isOpen => follows.unclosed isOpen closed
    refine ⟨shut, ?_, ?_, last⟩
    · rw [isFed_of_worker? there, Option.isNone_eq_false_iff]
      exact stopped
    · rw [follows.texts, messages, all, List.take_length]
  · rw [eq_leave_of_exit here isOpen exit]
    exact leave_exits here
  · have stays := run.closed here closed
    refine ⟨stays, ?_, by rw [Store.ids, List.length_map]; rfl⟩
    rw [Store.mem_ids, (run.tied tied).gone id k stays closed]
    exact Bool.false_ne_true
  · rcases receive_ping s j payload with same | same
    · rw [same]
    · rw [same]
      rfl

/-- **A socket writes what was accepted**: in every run of a server, the messages that were accepted
first, in order and one frame for each; it ends by itself only when all is written and nobody is
left to send more; and when it has ended, however that came, its connection is not registered. -/
theorem Run.relays {root : Path} {endpoint : Endpoint} {st₀ : σ}
    (run : Run r { root, service := { endpoint } } st₀ s st)
    (here : Assoc.get? s.sockets id = some k) : Relays r s st id k :=
  (run.tied (.new root endpoint)).relay r st here

end Steps

/-! ### What a server does is a run -/

namespace Run

variable {σ : Type} {r : Resolver σ} {s₀ s : Server} {st₀ st : σ}

theorem serve {log : List Service.Note} {service : Service} {st' : σ} (run : Run r s₀ st₀ s st)
    (more : Service.Run r s.service st log service st') :
    Run r s₀ st₀ { s with service } st' := by
  induction more with
  | start => exact run
  | step _ h ih => exact ih.step (.serve h)

theorem openSocket (run : Run r s₀ st₀ s st) (tied : s.Tied) (key platform : String)
    (entry : Path) :
    Run r s₀ st₀ (s.openSocket r key platform entry st).2.1
      (s.openSocket r key platform entry st).2.2 := by
  have connected := run.serve (Service.Run.connect r s.service platform entry {} st)
  unfold Server.openSocket
  rcases s.service.connect_cases r platform entry {} st with
    ⟨fault, refusal, nextId, -, h⟩ | ⟨graph, source, -, h⟩
  · rw [h] at connected ⊢
    exact connected
  · rw [h] at connected ⊢
    refine connected.step (.upgrade ?_ tied.unused)
    rw [Service.start, Service.worker?_onWorker_self, tied.sound.worker?_admitted_self]
    rfl

theorem read (run : Run r s₀ st₀ s st) (tied : s.Tied) (request : Request) :
    Run r s₀ st₀ (s.read r request st).2.1 (s.read r request st).2.2 := by
  unfold Server.read
  split
  · unfold Server.hot
    split
    · exact run
    · exact run
    · split
      · exact run
      · exact run.openSocket tied _ _ _
  · exact run
  · exact run

theorem answer (run : Run r s₀ st₀ s st) (tied : s.Tied) (request : Request) :
    Run r s₀ st₀ (s.answer r request st).2.1 (s.answer r request st).2.2 := by
  unfold Server.answer
  split
  · exact run.read tied request
  · exact run.read tied request
  · exact run
  · exact run

theorem act (run : Run r s₀ st₀ s st) (tied : s.Tied) (act : Act σ) :
    Run r s₀ st₀ (s.act r st act).2.1 (s.act r st act).2.2 := by
  cases act with
  | request request => exact run.answer tied request
  | receive id incoming => exact run.step (.receive id incoming)
  | forward id =>
    simp only [Server.act]
    cases h : s.forward? id with
    | none => exact run
    | some s' => exact run.step (.forward h)
  | work id =>
    simp only [Server.act]
    cases h : s.service.step? r id st with
    | none => exact run
    | some next =>
      obtain ⟨log, more⟩ := Service.Run.of_step? h
      exact run.serve more
  | emit change => exact run.step (.serve (.emit change))
  | disconnect id => exact run.step (.serve (.disconnect id))
  | refuse reason => exact run.step (.serve (.refuse reason))
  | cling => exact run.step (.serve .cling)
  | edit st' => exact run.step (.serve (.edit st'))

/-- **To play is to run.** -/
theorem play (acts : List (Act σ)) (run : Run r s₀ st₀ s st) (start : s₀.Tied) :
    Run r s₀ st₀ (s.play r acts st).2.1 (s.play r acts st).2.2 := by
  induction acts generalizing s st with
  | nil => exact run
  | cons act acts ih => exact ih (run.act (run.tied start) act)

end Run

end Server

end HotReload.Http

namespace HotReload.Sample

open Http

/-- A client comes, sends a ping, and its entry file is lost; its socket is told so, and ends. -/
def bereft : List (Act Tree) :=
  [.request visit, .edit {}, .emit ⟨.deleted, entry⟩, .receive 1 (.ping "?")] ++
    List.replicate 4 (.work 1) ++ List.replicate 4 (.forward 1)

/-- The closing error is written before the close frame, and then the client does not count. -/
theorem bereft_relays :
    let played := server.play Tree.resolver bereft tree
    (Assoc.get? played.2.1.sockets 1).map (fun k => (k.texts.length, k.written.getLast?)) =
        some (3, some .close) ∧
      (played.2.1.service.messagesOf 1).map Message.kind =
        ["update-start", "error", "update-done"] ∧
      played.2.1.service.store.ids = [] ∧
      ∃ k, Assoc.get? played.2.1.sockets 1 = some k ∧
        Server.Relays Tree.resolver played.2.1 played.2.2 1 k := by
  intro played
  have facts : (Assoc.get? played.2.1.sockets 1).map
        (fun k => (k.texts.length, k.written.getLast?)) = some (3, some .close) ∧
      (played.2.1.service.messagesOf 1).map Message.kind =
        ["update-start", "error", "update-done"] ∧
      played.2.1.service.store.ids = [] := by decide +kernel
  obtain ⟨written, sent, gone⟩ := facts
  obtain ⟨k, here, -⟩ := Option.map_eq_some_iff.mp written
  have run : Server.Run Tree.resolver server tree played.2.1 played.2.2 :=
    Server.Run.start.play bereft (.new _ _)
  exact ⟨written, sent, gone, k, here, run.relays here⟩

end HotReload.Sample
