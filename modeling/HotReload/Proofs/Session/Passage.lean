import HotReload.Proofs.Resolver.Look
import HotReload.Proofs.Session.After
import HotReload.Proofs.Session.Veil

/-!
# What a worker comes to

A worker goes on by itself until it waits, and what it comes to depends on nothing but itself and
how the files look: not on when it takes its steps, nor on the number of its connection.

* `Worker.next?`: the worker after its next step, when its service has heard what it tells.
* `Worker.Passes.unique`: where a worker waits, it is the same whenever it got there.
* `Worker.Passes.dress`: the number of the connection makes no difference.
-/

namespace HotReload

namespace Worker

variable {σ α : Type} {r : Resolver σ} {look : σ → α} {st st' : σ} {w w₁ w' : Worker}

/-- The worker after its service has heard what it tells: one that tells why it stopped is taken
out. -/
def heard (w : Worker) : Worker := if w.farewell?.isSome && w.isFed then w.part else w

/-- The worker after its next step; none where it has to wait. -/
def next? (r : Resolver σ) (w : Worker) (st : σ) : Option Worker :=
  (w.step? r st).map fun next => next.1.heard

theorem next?_eq_none_iff : w.next? r st = none ↔ w.step? r st = none :=
  Option.map_eq_none_iff

/-- The next step depends on how the files look. -/
theorem next?_congr (m : r.Matches r fun st st' => look st = look st') (same : look st = look st')
    (w : Worker) : w.next? r st = w.next? r st' := by
  unfold next?
  rcases w.step?_matches m same with ⟨h, h'⟩ | ⟨w₁, st₁, st₁', h, h', -⟩
  · rw [h, h']
  · rw [h, h']
    rfl

/-- A worker goes on by itself, while the files look as they do. -/
inductive Passes (r : Resolver σ) (st : σ) : Worker → Worker → Prop where
  | refl (w : Worker) : Passes r st w w
  | step {w w₁ w' : Worker} (h : w.next? r st = some w₁) (t : Passes r st w₁ w') : Passes r st w w'

namespace Passes

theorem congr (m : r.Matches r fun st st' => look st = look st') (same : look st = look st')
    (h : Passes r st w w') : Passes r st' w w' := by
  induction h with
  | refl => exact .refl _
  | step h _ ih => exact .step ((next?_congr m same _).symm.trans h) ih

/-- **Where a worker waits**, it is the same whenever it got there. -/
theorem unique {u v : Worker} (h : Passes r st w u) (waits : u.next? r st = none)
    (h' : Passes r st w v) (waits' : v.next? r st = none) : u = v := by
  -- both take the same first step, or both wait already
  induction h with
  | refl =>
    cases h' with
    | refl => rfl
    | step next _ =>
      rw [waits] at next
      cases next
  | step next _ ih =>
    cases h' with
    | refl =>
      rw [waits'] at next
      cases next
    | step next' t =>
      rw [next] at next'
      cases next'
      exact ih waits t

end Passes

/-! ### Under another number -/

/-- The worker with its connection under another number. -/
def dress (number : ConnectionId → ConnectionId) (w : Worker) : Worker :=
  w.onConnection (Connection.dress number [])

variable (number : ConnectionId → ConnectionId)

theorem absorb_dress (w : Worker) (moved : Connection.Moved) :
    (w.dress number).absorb (moved.dress number []) = (w.absorb moved).dress number := by
  unfold absorb
  rw [show (moved.dress number []).2 = moved.2 from rfl]
  cases moved.2.bind Outcome.exit? <;> rfl

theorem heard_dress (w : Worker) : (w.dress number).heard = w.heard.dress number := by
  unfold heard
  rw [show (w.dress number).farewell? = w.farewell? from rfl,
    show (w.dress number).isFed = w.isFed from rfl]
  split <;> rfl

theorem step?_dress (w : Worker) (st : σ) :
    (w.dress number).step? r st = (w.step? r st).map fun next => (next.1.dress number, next.2) := by
  unfold step?
  rw [show (w.dress number).isStarted = w.isStarted from rfl,
    show (w.dress number).exit = w.exit from rfl,
    show (w.dress number).connection.cycle = w.connection.cycle from rfl,
    show (w.dress number).queue = w.queue from rfl,
    show (w.dress number).isFed = w.isFed from rfl,
    show (w.dress number).connection = w.connection.dress number [] from rfl,
    Connection.step?_dress]
  split
  · rfl
  · split
    · rw [Option.map_map, Option.map_map]
      refine congrArg (fun f => (w.connection.step? r st).map f) (funext fun next => ?_)
      exact congrArg (·, next.2) (absorb_dress number w next.1)
    · split
      · next change queue _ =>
        refine congrArg (fun w => some (w, st)) ?_
        rw [Connection.handle_dress]
        exact absorb_dress number { w with queue } (w.connection.handle change)
      · split <;> rfl

theorem next?_dress (w : Worker) (st : σ) :
    (w.dress number).next? r st = (w.next? r st).map (dress number) := by
  unfold next?
  rw [step?_dress, Option.map_map, Option.map_map]
  exact congrArg (fun f => (w.step? r st).map f) (funext fun next => heard_dress number next.1)

theorem Passes.dress (h : Passes r st w w') :
    Passes r st (w.dress number) (w'.dress number) := by
  induction h with
  | refl => exact .refl _
  | step h _ ih => exact .step ((next?_dress number _ st).trans (congrArg (Option.map _) h)) ih

end Worker

end HotReload
