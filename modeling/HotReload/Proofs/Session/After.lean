import HotReload.Proofs.Session.Cycle

/-!
# What was sent before

What a client was sent before makes no difference to what it is sent next, and neither does the
number of its connection.  `Connection.dress` gives a connection another number and puts messages
before those that it was sent, and every step commutes with it; `Connection.after` only puts
messages before.

* `Connection.handle_dress`, `Connection.step?_dress`: a change is taken up, and a cycle goes on.
* `Handling.after`, `Handling.of_after`: a handling, with messages before it.
* `Present.course_iff`: where the client is there, what comes of a change depends on the session
  and not on what was sent.
-/

namespace HotReload

namespace Sink

/-- The sink with more messages sent before. -/
def after (before : List Message) (s : Sink) : Sink :=
  { s with accepted := before ++ s.accepted, limit := s.limit.map (before.length + ·) }

theorem accept?_after (before : List Message) (s : Sink) (m : Message) :
    (s.after before).accept? m = (s.accept? m).map (after before) := by
  cases hopen : s.isOpen with
  | false => simp [accept?, after, hopen]
  | true =>
    have reached :
        (s.limit.map (before.length + ·)).any (· ≤ (before ++ s.accepted ++ [m]).length) =
        s.limit.any (· ≤ (s.accepted ++ [m]).length) := by
      cases s.limit with
      | none => rfl
      | some n => simp
    simp only [accept?, after, hopen, if_true, Option.map_some, reached]
    simp

theorem closeAfter_after (before : List Message) (s : Sink) (n : Nat) :
    (s.after before).closeAfter n = (s.closeAfter n).after before := by
  simp [closeAfter, after, Nat.add_assoc]

end Sink

namespace Connection

/-- The connection under another number, with more messages sent before. -/
def dress (number : ConnectionId → ConnectionId) (before : List Message) (c : Connection) :
    Connection :=
  { c with
    session := { c.session with connection := number c.session.connection }
    sink := c.sink.after before }

/-- The same for the end of a step. -/
def Moved.dress (number : ConnectionId → ConnectionId) (before : List Message) (moved : Moved) :
    Moved :=
  (moved.1.dress number before, moved.2)

section Dress

variable (number : ConnectionId → ConnectionId) (before : List Message)

theorem discard_dress (c : Connection) :
    (c.dress number before).discard = c.discard.dress number before := rfl

theorem send_dress {next : Connection → Moved} (c : Connection) (m : Message)
    (h : ∀ c, next (c.dress number before) = (next c).dress number before) :
    (c.dress number before).send m next = (c.send m next).dress number before := by
  unfold send
  rw [show (c.dress number before).sink.accept? m = (c.sink.accept? m).map (Sink.after before) from
    Sink.accept?_after before c.sink m]
  cases c.sink.accept? m with
  | none => rfl
  | some sink => exact h { c with sink }

theorem complete_dress (c : Connection) (phase : Phase) (outcome : Outcome) :
    (c.dress number before).complete phase outcome =
      (c.complete phase outcome).dress number before :=
  send_dress number before c .updateDone fun _ => rfl

theorem conclude_dress (c : Connection) (result : Except UpdateFault (Option Payload)) :
    (c.dress number before).conclude result = (c.conclude result).dress number before := by
  cases hg : c.isGone with
  | true =>
    have hg' : (c.dress number before).isGone = true := hg
    rw [conclude_of_isGone hg, conclude_of_isGone hg', discard_dress]
  | false =>
    have hg' : (c.dress number before).isGone = false := hg
    rcases result with fault | _ | payload
    · cases lost : fault.isEntryLost with
      | true =>
        rw [conclude_entryLost hg lost, conclude_entryLost hg' lost]
        exact send_dress number before
          { c with session := { c.session with active := false }, phase := .sending } _
          fun c => complete_dress number before c .closed .invalidated
      | false =>
        rw [conclude_fault hg lost, conclude_fault hg' lost]
        exact send_dress number before { c with phase := .sending } _
          fun c => complete_dress number before c .idle .failed
    · rw [conclude_nothing hg, conclude_nothing hg']
      exact complete_dress number before { c with phase := .sending } .idle .unchanged
    · rw [conclude_update hg, conclude_update hg']
      exact send_dress number before { c with phase := .sending } _
        fun c => complete_dress number before c .idle (.updated payload.modules.length)

theorem act_dress (c : Connection) (reaction : Reaction) :
    (c.dress number before).act reaction = (c.act reaction).dress number before := by
  cases reaction with
  | irrelevant => exact conclude_dress number before c (.ok none)
  | deleted m =>
    exact conclude_dress number before c
      (.ok (some (Payload.deletion m.id c.session.graph.inverse)))
  | rebuild modules =>
    unfold act
    have job : (c.dress number before).session.jobFor? (c.dress number before).endpoint modules =
        c.session.jobFor? c.endpoint modules := rfl
    simp only [job]
    split
    · exact conclude_dress number before c (.ok none)
    · rfl

theorem advance_dress (c : Connection) (change : Change) (progress : Progress) :
    (c.dress number before).advance change progress =
      (c.advance change progress).dress number before := by
  match progress with
  | .probing probe => rfl
  | .settled (.error fault) => exact conclude_dress number before c (.error fault)
  | .settled (.ok (g, reaction)) =>
    exact act_dress number before { c with session := { c.session with graph := g } } reaction

theorem receive_dress (c : Connection) (answer : Except ResolveFault (List BuiltModule)) :
    (c.dress number before).receive answer = (c.receive answer).dress number before := by
  cases answer with
  | error fault => exact conclude_dress number before c (.error (.ofResolve fault))
  | ok built => exact conclude_dress number before c (.ok (c.session.updateFor built))

theorem handle_dress (c : Connection) (change : Change) :
    (c.dress number before).handle change = (c.handle change).dress number before := by
  unfold handle
  simp only [show (c.dress number before).phase = c.phase from rfl,
    show (c.dress number before).isGone = c.isGone from rfl,
    show (c.dress number before).session.active = c.session.active from rfl,
    show (c.dress number before).session.isRelevant change = c.session.isRelevant change from rfl]
  split
  · exact discard_dress number before c
  · split
    · rfl
    · exact send_dress number before { c with phase := .awaiting } .updateStart
        fun c => advance_dress number before c change _

theorem step?_dress {σ : Type} (r : Resolver σ) (c : Connection) (st : σ) :
    (c.dress number before).step? r st =
      (c.step? r st).map fun e => (e.1.dress number before, e.2) := by
  unfold step?
  simp only [show (c.dress number before).cycle = c.cycle from rfl,
    show ∀ change probe, Probe.next (c.dress number before).session change probe =
      Probe.next c.session change probe from fun _ _ => rfl]
  cases c.cycle with
  | none => rfl
  | some cycle =>
    cases cycle with
    | probing change probe => simp only [advance_dress, Option.map_some]
    | ordering job => rfl
    | building job =>
      cases hd : r.deliver job st with
      | mk answer st' =>
        cases answer with
        | none => simp only [hd, Option.map_none]
        | some answer => simp only [hd, receive_dress, Option.map_some]

end Dress

/-- The connection with more messages sent before. -/
def after (before : List Message) (c : Connection) : Connection :=
  { c with sink := c.sink.after before }

/-- The same for the end of a step. -/
def Moved.after (before : List Message) (moved : Moved) : Moved :=
  (moved.1.after before, moved.2)

section After

variable (before : List Message)

theorem handle_after (c : Connection) (change : Change) :
    (c.after before).handle change = (c.handle change).after before :=
  handle_dress id before c change

theorem step?_after {σ : Type} (r : Resolver σ) (c : Connection) (st : σ) :
    (c.after before).step? r st = (c.step? r st).map fun e => (e.1.after before, e.2) :=
  step?_dress id before r c st

theorem Stirs.after {σ : Type} {c c' : Connection} {st st' : σ} (h : Stirs c st c' st') :
    Stirs (c.after before) st (c'.after before) st' := by
  cases h with
  | edited => exact .edited ..
  | parted => exact .parted ..
  | closed => exact .closed ..
  | limited n =>
    have := Stirs.limited (c.after before) st n
    rwa [show (c.after before).sink.closeAfter n = (c.sink.closeAfter n).after before from
      Sink.closeAfter_after before c.sink n] at this

theorem Stirs.of_after {σ : Type} {c d : Connection} {st st' : σ}
    (h : Stirs (c.after before) st d st') : ∃ c', d = c'.after before ∧ Stirs c st c' st' := by
  cases h with
  | edited => exact ⟨c, rfl, .edited ..⟩
  | parted => exact ⟨{ c with isAlive := false }, rfl, .parted ..⟩
  | closed => exact ⟨{ c with sink := c.sink.close }, rfl, .closed ..⟩
  | limited n =>
    refine ⟨{ c with sink := c.sink.closeAfter n }, ?_, .limited c st n⟩
    rw [show (c.after before).sink.closeAfter n = (c.sink.closeAfter n).after before from
      Sink.closeAfter_after before c.sink n]
    rfl

end After

theorem Handling.after {σ : Type} {r : Resolver σ} {c : Connection} {change : Change} {st st' : σ}
    {heard : List Answer} {moved : Moved} (before : List Message)
    (h : Handling r c change st heard moved st') :
    Handling r (c.after before) change st heard (moved.after before) st' := by
  induction h with
  | start idle =>
    rw [← handle_after]
    exact .start idle
  | step _ hs ih => exact ih.step (by rw [step?_after, hs]; rfl)
  | stir _ hs ih => exact ih.stir (hs.after before)

theorem Handling.of_after {σ : Type} {r : Resolver σ} {c : Connection} {change : Change}
    {st st' : σ} {heard : List Answer} {moved : Moved} {before : List Message}
    (h : Handling r (c.after before) change st heard moved st') :
    ∃ moved₀ : Moved, moved = moved₀.after before ∧ Handling r c change st heard moved₀ st' := by
  -- each state of the handling has the messages before it, so that they can be taken off again
  induction h with
  | start idle => exact ⟨_, handle_after before c change, .start idle⟩
  | step _ hs ih =>
    obtain ⟨⟨c₀, o⟩, hm, h₀⟩ := ih
    obtain ⟨rfl, rfl⟩ := Prod.mk.inj hm
    rw [step?_after, Option.map_eq_some_iff] at hs
    obtain ⟨⟨moved₀, st₀⟩, hs₀, he⟩ := hs
    obtain ⟨rfl, rfl⟩ := Prod.mk.inj he
    exact ⟨moved₀, rfl, h₀.step hs₀⟩
  | stir _ hs ih =>
    obtain ⟨⟨c₀, o⟩, hm, h₀⟩ := ih
    obtain ⟨rfl, rfl⟩ := Prod.mk.inj hm
    obtain ⟨c₀', rfl, hs₀⟩ := Stirs.of_after before hs
    exact ⟨(c₀', none), rfl, h₀.stir hs₀⟩

/-! ### What a client gets -/

/-- A change can be dealt with so: these answers, these messages, this session afterwards and this
outcome. -/
def Course {σ : Type} (r : Resolver σ) (c : Connection) (change : Change) (st : σ)
    (heard : List Answer) (ms : List Message) (session : Session) (outcome : Outcome) (st' : σ) :
    Prop :=
  ∃ c', Handling r c change st heard (c', some outcome) st' ∧
    c'.sink.accepted = c.sink.accepted ++ ms ∧ c'.session = session

/-- **What was sent before makes no difference.** -/
theorem Course.after_iff {σ : Type} {r : Resolver σ} {c : Connection} {change : Change}
    {st st' : σ} {heard : List Answer} {ms : List Message} {session : Session} {outcome : Outcome}
    (before : List Message) :
    Course r (c.after before) change st heard ms session outcome st' ↔
      Course r c change st heard ms session outcome st' := by
  have accepted : ∀ d : Connection,
      (d.after before).sink.accepted = (c.after before).sink.accepted ++ ms ↔
        d.sink.accepted = c.sink.accepted ++ ms := by
    intro d
    show before ++ d.sink.accepted = (before ++ c.sink.accepted) ++ ms ↔ _
    rw [List.append_assoc, List.append_cancel_left_eq]
  constructor
  · rintro ⟨d, h, sent, session⟩
    obtain ⟨⟨d₀, o⟩, hm, h₀⟩ := h.of_after
    obtain ⟨rfl, rfl⟩ := Prod.mk.inj hm
    exact ⟨d₀, h₀, (accepted d₀).mp sent, session⟩
  · rintro ⟨d, h, sent, session⟩
    exact ⟨d.after before, h.after before, (accepted d).mpr sent, session⟩

/-- The client is there and takes every message. -/
structure Present (c : Connection) : Prop where
  isAlive : c.isAlive = true
  isOpen : c.sink.isOpen = true
  unlimited : c.sink.limit = none

/-- Where the client is there, the sink is a new one after what was sent. -/
theorem Present.eq_after {c : Connection} (h : Present c) :
    c = ({ c with sink := {} } : Connection).after c.sink.accepted := by
  have sink : c.sink = (({} : Sink).after c.sink.accepted) := by
    have hopen := h.isOpen
    have hlimit := h.unlimited
    revert hopen hlimit
    rcases c.sink with ⟨accepted, isOpen, limit⟩
    rintro rfl rfl
    simp [Sink.after]
  unfold after
  rw [← sink]

theorem Present.course_iff {σ : Type} {r : Resolver σ} {c : Connection} {change : Change}
    {st st' : σ} {heard : List Answer} {ms : List Message} {session : Session} {outcome : Outcome}
    (h : Present c) :
    Course r c change st heard ms session outcome st' ↔
      Course r { c with sink := {} } change st heard ms session outcome st' := by
  conv =>
    lhs
    rw [h.eq_after]
  exact Course.after_iff c.sink.accepted

end Connection

end HotReload
