import HotReload.Proofs.Session.Cycle
import HotReload.Session.Worker

/-!
# Steps of a worker

`Worker.Does` lists what a worker can do in a step, with what can be seen of it: a change is given
to the connection, a change has been dealt with, the worker tells why it stopped.

* `Worker.step?_iff`: the steps of a worker are these.
* `Worker.Does.changes_prefix`, `Worker.Does.in_hand`, `Worker.Does.told`: what a step does with the
  changes that wait, with the change in hand, and what it tells.
-/

namespace HotReload

/-- What can be seen of a worker. -/
inductive Deed where
  /-- A change is given to the connection. -/
  | takes (change : Change)
  /-- The change in hand has been dealt with. -/
  | ends (outcome : Outcome)
  /-- The worker stops and tells why. -/
  | tells (exit : WorkerExit)

namespace Deed

/-- The change that is given to the connection. -/
def change? : Deed → Option Change
  | .takes change => some change
  | _ => none

/-- Why the worker stops, where it tells. -/
def exit? : Deed → Option WorkerExit
  | .tells exit => some exit
  | _ => none

/-- Whether a change is in hand after a deed; none where the deed is out of turn.  A change can be
taken where none is in hand, and an outcome can come where one is. -/
def hands (busy : Bool) : Deed → Option Bool
  | .takes _ => if busy then none else some true
  | .ends _ => if busy then some false else none
  | .tells _ => if busy then none else some false

end Deed

namespace Connection

/-- What can be seen of a step of a connection. -/
def Moved.deeds (moved : Moved) : List Deed :=
  moved.2.toList.flatMap fun outcome => .ends outcome :: outcome.exit?.toList.map .tells

theorem Moved.deeds_changes (moved : Moved) : moved.deeds.filterMap Deed.change? = [] := by
  obtain ⟨c, _ | outcome⟩ := moved
  · rfl
  · cases outcome <;> rfl

theorem Moved.takes_changes (change : Change) (moved : Moved) :
    (Deed.takes change :: moved.deeds).filterMap Deed.change? = [change] :=
  congrArg (change :: ·) moved.deeds_changes

theorem Moved.deeds_exits (moved : Moved) :
    moved.deeds.filterMap Deed.exit? = (moved.2.bind Outcome.exit?).toList := by
  obtain ⟨c, _ | outcome⟩ := moved
  · rfl
  · cases outcome <;> rfl

/-! ### Cycles and outcomes -/

/-- A step ends with an outcome, or in a cycle. -/
def Moved.Whole (moved : Moved) : Prop := moved.1.cycle.isSome = moved.2.isNone

/-- The change in hand is in hand until there is an outcome. -/
theorem Moved.Whole.hands {moved : Moved} (whole : moved.Whole) :
    moved.deeds.foldlM Deed.hands true = some moved.1.cycle.isSome := by
  obtain ⟨c, _ | outcome⟩ := moved
  · exact congrArg some whole.symm
  · rw [show c.cycle.isSome = false from whole]
    cases outcome <;> rfl

theorem conclude_whole (c : Connection) (result : Except UpdateFault (Option Payload)) :
    (c.conclude result).Whole := by
  have ends := conclude_ends c result
  generalize c.conclude result = moved at ends ⊢
  cases ends <;> rfl

theorem act_whole (c : Connection) (reaction : Reaction) : (c.act reaction).Whole := by
  cases reaction with
  | irrelevant => exact conclude_whole c _
  | deleted => exact conclude_whole c _
  | rebuild modules =>
    simp only [act]
    split
    · exact conclude_whole c _
    · rfl

theorem advance_whole (c : Connection) (change : Change) (progress : Progress) :
    (c.advance change progress).Whole := by
  match progress with
  | .probing probe => rfl
  | .settled (.error fault) => exact conclude_whole c _
  | .settled (.ok (g, reaction)) => exact act_whole _ reaction

theorem handle_whole {c : Connection} (idle : c.cycle = none) (change : Change) :
    (c.handle change).Whole := by
  unfold handle
  split
  · rfl
  · split
    · simp [Moved.Whole, idle]
    · rcases send_cases { c with phase := .awaiting } .updateStart
        (fun c => c.advance change (Progress.start c.session change)) with h | ⟨sink, -, h⟩
      · rw [h]
        rfl
      · rw [h]
        exact advance_whole _ change _

theorem step?_whole {σ : Type} {r : Resolver σ} {c : Connection} {st st' : σ} {moved : Moved}
    (h : c.step? r st = some (moved, st')) : moved.Whole := by
  unfold step? at h
  split at h
  · cases h
  · cases h
    exact advance_whole c _ _
  · cases h
    rfl
  · split at h
    · cases h
    · next answer _ _ =>
      cases h
      cases answer <;> exact conclude_whole c _

theorem isSome_of_step? {σ : Type} {r : Resolver σ} {c : Connection} {st : σ}
    {next : Moved × σ} (h : c.step? r st = some next) : c.cycle.isSome = true := by
  cases hc : c.cycle with
  | none =>
    rw [step?, hc] at h
    cases h
  | some cycle => rfl

end Connection

namespace Worker

/-! ### Taking a step in -/

theorem absorb_connection (w : Worker) (moved : Connection.Moved) :
    (w.absorb moved).connection = moved.1 := by
  unfold absorb
  split <;> rfl

theorem absorb_isFed (w : Worker) (moved : Connection.Moved) :
    (w.absorb moved).isFed = w.isFed := by
  unfold absorb
  split <;> rfl

theorem absorb_exit {w : Worker} (going : w.exit = none) (moved : Connection.Moved) :
    (w.absorb moved).exit = moved.2.bind Outcome.exit? := by
  unfold absorb
  split
  · next exit h => exact h.symm
  · next h => exact going.trans h.symm

/-- A worker that goes on keeps what waits. -/
theorem absorb_queue {w : Worker} {moved : Connection.Moved}
    (going : (w.absorb moved).exit = none) :
    (w.absorb moved).queue = w.queue := by
  unfold absorb at going ⊢
  split
  · next exit h =>
    rw [h] at going
    cases going
  · rfl

/-! ### Steps -/

/-- A worker that was started and has not stopped. -/
structure Live (w : Worker) : Prop where
  isStarted : w.isStarted = true
  going : w.exit = none

/-- What a worker does in a step. -/
inductive Does {σ : Type} (r : Resolver σ) (w : Worker) (st : σ) :
    List Deed → Worker → σ → Prop where
  /-- It gives the next change to its connection. -/
  | take {change : Change} {queue : List Change} (live : w.Live)
      (idle : w.connection.cycle = none) (next : w.queue = change :: queue) :
      Does r w st (.takes change :: (w.connection.handle change).deeds)
        ({ w with queue }.absorb (w.connection.handle change)) st
  /-- The change in hand is dealt with further. -/
  | go {moved : Connection.Moved} {st' : σ} (live : w.Live)
      (h : w.connection.step? r st = some (moved, st')) :
      Does r w st moved.deeds (w.absorb moved) st'
  /-- There is nothing left to do, and there never will be. -/
  | dry (live : w.Live) (idle : w.connection.cycle = none) (next : w.queue = [])
      (unfed : w.isFed = false) : Does r w st [] (w.stop .drained) st

/-- **The steps of a worker.** -/
theorem step?_iff {σ : Type} {r : Resolver σ} {w w' : Worker} {st st' : σ} :
    w.step? r st = some (w', st') ↔ ∃ deeds, w.Does r st deeds w' st' := by
  constructor
  · intro h
    unfold step? at h
    split at h
    · cases h
    · next live =>
      simp only [Bool.or_eq_true, Bool.not_eq_true', not_or, Bool.not_eq_false,
        Bool.not_eq_true, Option.isSome_eq_false_iff, Option.isNone_iff_eq_none] at live
      split at h
      · obtain ⟨⟨moved, st₁⟩, hmoved, he⟩ := Option.map_eq_some_iff.mp h
        obtain ⟨rfl, rfl⟩ := Prod.mk.inj he
        exact ⟨_, .go ⟨live.1, live.2⟩ hmoved⟩
      · next idle =>
        rw [Bool.not_eq_true, Option.isSome_eq_false_iff, Option.isNone_iff_eq_none] at idle
        split at h
        · next change queue next =>
          cases h
          exact ⟨_, .take ⟨live.1, live.2⟩ idle next⟩
        · next next =>
          split at h
          · cases h
          · next unfed =>
            cases h
            exact ⟨_, .dry ⟨live.1, live.2⟩ idle next (Bool.not_eq_true _ ▸ unfed)⟩
  · rintro ⟨deeds, does⟩
    cases does with
    | take live idle next => simp [step?, live.isStarted, live.going, idle, next]
    | go live h => simp [step?, live.isStarted, live.going, Connection.isSome_of_step? h, h]
    | dry live idle next unfed => simp [step?, live.isStarted, live.going, idle, next, unfed]

/-- Whether a worker waits for a build that is not delivered yet. -/
def AwaitsBuild {σ : Type} (r : Resolver σ) (w : Worker) (st : σ) : Prop :=
  ∃ job, w.connection.cycle = some (.building job) ∧ (r.deliver job st).1 = none

/-- **What a worker waits for**: a build, or changes that somebody can still hand in. -/
theorem waits_for {σ : Type} {r : Resolver σ} {w : Worker} {st : σ} (live : w.Live)
    (still : w.step? r st = none) :
    w.AwaitsBuild r st ∨ w.connection.cycle = none ∧ w.queue = [] ∧ w.isFed = true := by
  unfold step? at still
  simp only [live.isStarted, live.going, Option.isSome_none, Bool.not_true, Bool.or_self,
    Bool.false_eq_true, if_false] at still
  cases hc : w.connection.cycle with
  | none =>
    simp only [hc, Option.isSome_none, Bool.false_eq_true, if_false] at still
    cases hq : w.queue with
    | cons change queue => simp [hq] at still
    | nil =>
      rw [hq] at still
      exact .inr ⟨rfl, rfl, by simpa using still⟩
  | some cycle =>
    simp only [hc, Option.isSome_some, if_true, Option.map_eq_none_iff, Connection.step?] at still
    -- of a cycle only a delivery can be held back
    cases cycle with
    | probing change probe => cases still
    | ordering job => cases still
    | building job =>
      refine .inl ⟨job, hc, ?_⟩
      cases hd : r.deliver job st with
      | mk answer st' =>
        cases answer with
        | none => rfl
        | some answer => simp only [hd, reduceCtorEq] at still

namespace Does

variable {σ : Type} {r : Resolver σ} {w w' : Worker} {st st' : σ} {deeds : List Deed}

theorem live (h : w.Does r st deeds w' st') : w.Live := by
  cases h with
  | take live => exact live
  | go live => exact live
  | dry live => exact live

theorem isFed (h : w.Does r st deeds w' st') : w'.isFed = w.isFed := by
  cases h with
  | take => exact absorb_isFed _ _
  | go => exact absorb_isFed _ _
  | dry => rfl

/-- No outcome makes a worker run dry. -/
theorem outcome_exit?_ne_drained (outcome : Option Outcome) :
    outcome.bind Outcome.exit? ≠ some .drained := by
  rcases outcome with _ | outcome
  · simp
  · cases outcome <;> simp [Outcome.exit?]

/-- A worker runs dry only where nobody can hand changes in and nothing waits. -/
theorem drained (h : w.Does r st deeds w' st') (drained : w'.exit = some .drained) :
    w'.isFed = false ∧ w.queue = [] ∧ w'.connection.cycle = none := by
  cases h with
  | take live =>
    rw [absorb_exit (by exact live.going)] at drained
    exact absurd drained (outcome_exit?_ne_drained _)
  | go live =>
    rw [absorb_exit live.going] at drained
    exact absurd drained (outcome_exit?_ne_drained _)
  | dry _ idle next unfed => exact ⟨unfed, next, idle⟩

/-- The changes that a step takes are the first that wait. -/
theorem changes_prefix (h : w.Does r st deeds w' st') :
    deeds.filterMap Deed.change? <+: w.queue := by
  cases h with
  | take _ _ next =>
    rw [next, Connection.Moved.takes_changes]
    exact ⟨_, rfl⟩
  | go => exact Connection.Moved.deeds_changes _ ▸ List.nil_prefix
  | dry => exact List.nil_prefix

/-- A worker that goes on keeps the changes that it does not take. -/
theorem queue_eq (h : w.Does r st deeds w' st') (going : w'.exit = none) :
    w.queue = deeds.filterMap Deed.change? ++ w'.queue := by
  cases h with
  | take _ _ next =>
    rw [next, Connection.Moved.takes_changes, absorb_queue going]
    rfl
  | go => rw [Connection.Moved.deeds_changes, absorb_queue going, List.nil_append]
  | dry => cases going

/-- **One change in hand**: a change is taken where there is none in hand, and it is in hand until
there is an outcome. -/
theorem in_hand (h : w.Does r st deeds w' st') :
    deeds.foldlM Deed.hands w.connection.cycle.isSome = some w'.connection.cycle.isSome := by
  cases h with
  | take _ idle =>
    rw [absorb_connection, idle]
    exact (Connection.handle_whole idle _).hands
  | go _ hs =>
    rw [absorb_connection, Connection.isSome_of_step? hs]
    exact (Connection.step?_whole hs).hands
  | dry => rfl

/-- A worker that stops has nothing in hand. -/
theorem cycle_of_stopped (h : w.Does r st deeds w' st') (stopped : w'.exit.isSome = true) :
    w'.connection.cycle = none := by
  have none_left : ∀ {moved : Connection.Moved}, moved.Whole →
      (moved.2.bind Outcome.exit?).isSome = true → moved.1.cycle = none := by
    rintro ⟨c, _ | outcome⟩ whole some_
    · cases some_
    · exact Option.isNone_iff_eq_none.mp (by simpa [Connection.Moved.Whole] using whole)
  cases h with
  | take live idle =>
    rw [absorb_exit (by exact live.going)] at stopped
    rw [absorb_connection]
    exact none_left (Connection.handle_whole idle _) stopped
  | go live hs =>
    rw [absorb_exit live.going] at stopped
    rw [absorb_connection]
    exact none_left (Connection.step?_whole hs) stopped
  | dry _ idle => exact idle

/-- **What a worker tells**: why it stops, unless it ran dry. -/
theorem told (h : w.Does r st deeds w' st') :
    deeds.filterMap Deed.exit? = w'.farewell?.toList := by
  have loud : ∀ outcome : Option Outcome,
      (outcome.bind Outcome.exit?).filter (· ≠ .drained) = outcome.bind Outcome.exit? := by
    rintro (_ | outcome)
    · rfl
    · cases outcome <;> rfl
  cases h with
  | take live =>
    rw [List.filterMap_cons_none rfl, Connection.Moved.deeds_exits, farewell?,
      absorb_exit (by exact live.going), loud]
  | go live =>
    rw [Connection.Moved.deeds_exits, farewell?, absorb_exit live.going, loud]
  | dry => rfl

end Does

end Worker

end HotReload
