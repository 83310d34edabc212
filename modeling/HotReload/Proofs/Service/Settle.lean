import HotReload.Proofs.Service.Run
import HotReload.Proofs.Session.Within

/-!
# Letting a service settle

The workers of a service go on until each of them waits, in any order.  Each comes to what it comes
to by itself, since no worker changes how the files look.  `Service.settle`, which lets one worker
go on after the other for a bounded number of steps, leaves none that could go on.

* `Service.Settles`: the workers have gone on until each waits, in any order.
* `Service.Settles.passes`: what became of one worker.
* `Service.Sound.settles_settle`: `Service.settle` is one way to settle.
-/

namespace HotReload

namespace Service

variable {σ α : Type} {r : Resolver σ} {look : σ → α} {s s₁ s' : Service} {st st₁ st' : σ}
  {id : ConnectionId} {w : Worker}

/-! ### One step -/

theorem step?_eq_none_iff :
    s.step? r id st = none ↔ ∀ w, s.worker? id = some w → w.next? r st = none := by
  unfold Service.step?
  cases s.worker? id with
  | none => simp
  | some w =>
    simp only [Option.some.injEq, forall_eq', Worker.next?_eq_none_iff]
    cases w.step? r st <;> simp

/-- A step does not change how the files look. -/
theorem step?_keeps (k : r.Keeps look) (h : s.step? r id st = some (s₁, st₁)) :
    look st₁ = look st := by
  obtain ⟨w, deeds, w', -, does, -⟩ := step?_iff.mp h
  cases does with
  | take => rfl
  | go _ hs => exact Connection.step?_keeps k hs
  | dry => rfl

/-- A worker after its step, when the service has heard what it tells. -/
theorem Sound.worker?_worked (sound : s.Sound) (here : s.worker? id = some w) {w' : Worker}
    {deeds : List Deed} (does : w.Does r st deeds w' st') :
    (s.worked id w').worker? id = some w'.heard := by
  rw [worker?_worked_self here, Worker.heard, does.isFed, sound.fed id w here]

/-- **A step is one of a worker**, of which the service hears. -/
theorem Sound.next?_of_step? (sound : s.Sound) (h : s.step? r id st = some (s₁, st₁)) :
    ∃ w w₁, s.worker? id = some w ∧ w.next? r st = some w₁ ∧ s₁.worker? id = some w₁ := by
  obtain ⟨w, deeds, w', here, does, rfl⟩ := step?_iff.mp h
  refine ⟨w, w'.heard, here, ?_, ?_⟩
  · rw [Worker.next?, Worker.step?_iff.mpr ⟨deeds, does⟩]
    rfl
  · exact sound.worker?_worked here does

theorem worker?_step?_ne (h : s.step? r id st = some (s₁, st₁)) {j : ConnectionId}
    (other : j ≠ id) : s₁.worker? j = s.worker? j := by
  obtain ⟨w, deeds, w', -, -, rfl⟩ := step?_iff.mp h
  exact worker?_worked_ne other w'

theorem Sound.step? (sound : s.Sound) (h : s.step? r id st = some (s₁, st₁)) : s₁.Sound := by
  obtain ⟨w, deeds, w', here, does, rfl⟩ := step?_iff.mp h
  exact sound.worked here does

/-! ### Any number of steps -/

namespace Goes

theorem keeps (h : Goes r s st s' st') (k : r.Keeps look) : look st' = look st := by
  induction h with
  | refl => rfl
  | step h _ ih => exact ih.trans (step?_keeps k h)

theorem sound (h : Goes r s st s' st') (sound : s.Sound) : s'.Sound := by
  induction h with
  | refl => exact sound
  | step h _ ih => exact ih (sound.step? h)

/-- **What becomes of one worker** depends on no other one. -/
theorem passes (h : Goes r s st s' st') (m : r.Matches r fun st st' => look st = look st')
    (k : r.Keeps look) (sound : s.Sound) (here : s.worker? id = some w) :
    ∃ w', s'.worker? id = some w' ∧ w.Passes r st w' := by
  induction h generalizing w with
  | refl => exact ⟨w, here, .refl w⟩
  | @step s s₁ s' st st₁ st' j h _ ih =>
    by_cases same : id = j
    · subst same
      obtain ⟨v, w₁, hv, next, here₁⟩ := sound.next?_of_step? h
      rw [here] at hv
      cases hv
      obtain ⟨w', here', passes⟩ := ih (sound.step? h) here₁
      exact ⟨w', here', .step next (passes.congr m (step?_keeps k h))⟩
    · -- the step of another worker leaves this one as it is, and the files look as before
      obtain ⟨w', here', passes⟩ := ih (sound.step? h) ((worker?_step?_ne h same).trans here)
      exact ⟨w', here', passes.congr m (step?_keeps k h)⟩

end Goes

/-- The workers have gone on until each waits. -/
structure Settles (r : Resolver σ) (s : Service) (st : σ) (s' : Service) (st' : σ) : Prop where
  goes : Goes r s st s' st'
  still : ∀ id, s'.step? r id st' = none

/-- **Each worker has gone on until it waits.** -/
theorem Settles.passes (h : Settles r s st s' st')
    (m : r.Matches r fun st st' => look st = look st') (k : r.Keeps look) (sound : s.Sound)
    (here : s.worker? id = some w) :
    ∃ w', s'.worker? id = some w' ∧ w.Passes r st w' ∧ w'.next? r st = none := by
  obtain ⟨w', here', passes⟩ := h.goes.passes m k sound here
  refine ⟨w', here', passes, ?_⟩
  rw [← Worker.next?_congr m (h.goes.keeps k)]
  exact step?_eq_none_iff.mp (h.still id) w' here'

/-! ### One worker after the other -/

theorem worker?_run_ne (r : Resolver σ) (fuel : Nat) (s : Service) (st : σ) {j : ConnectionId}
    (other : j ≠ id) : (s.run r id fuel st).1.worker? j = s.worker? j := by
  induction fuel generalizing s st with
  | zero => rfl
  | succ fuel ih =>
    unfold Service.run
    split
    · rfl
    · next s₁ st₁ h => exact (ih s₁ st₁).trans (worker?_step?_ne h other)

/-- A worker that goes on for long enough waits. -/
theorem Sound.run_waits (sound : s.Sound) (m : r.Matches r fun st st' => look st = look st')
    (k : r.Keeps look) {n fuel : Nat} (here : s.worker? id = some w) (within : w.Within r st n)
    (le : n ≤ fuel) :
    (s.run r id fuel st).1.step? r id (s.run r id fuel st).2 = none := by
  induction fuel generalizing n s st w with
  | zero =>
    obtain rfl : n = 0 := Nat.le_zero.mp le
    refine step?_eq_none_iff.mpr fun v hv => ?_
    rw [show v = w from Option.some.inj (hv.symm.trans here)]
    exact within
  | succ fuel ih =>
    unfold Service.run
    split
    · next h => exact h
    · next s₁ st₁ h =>
      obtain ⟨v, w₁, hv, next, here₁⟩ := sound.next?_of_step? h
      obtain rfl : v = w := Option.some.inj (hv.symm.trans here)
      cases n with
      | zero =>
        rw [show v.next? r st = none from within] at next
        cases next
      | succ n =>
        -- a step uses up one unit of fuel, and one of the steps after which the worker waits
        exact ih (sound.step? h) here₁ ((within w₁ next).congr m (step?_keeps k h).symm)
          (Nat.le_of_succ_le_succ le)

/-- A worker that waits still waits when others have gone on. -/
theorem step?_none_congr (m : r.Matches r fun st st' => look st = look st')
    (same : look st = look st') (here : s'.worker? id = s.worker? id)
    (waits : s.step? r id st = none) : s'.step? r id st' = none := by
  refine step?_eq_none_iff.mpr fun w hw => ?_
  rw [← Worker.next?_congr m same]
  exact step?_eq_none_iff.mp waits w (here.symm.trans hw)

theorem worker?_runAll_ne (r : Resolver σ) {workers : List (ConnectionId × Worker)}
    (other : id ∉ workers.map (·.1)) (s : Service) (st : σ) :
    (runAll r workers s st).1.worker? id = s.worker? id := by
  induction workers generalizing s st with
  | nil => rfl
  | cons e workers ih =>
    obtain ⟨first, rest⟩ := not_or.mp (List.mem_cons.not.mp other)
    rw [runAll_cons]
    exact (ih rest _ _).trans (worker?_run_ne r _ s st first)

/-- Of calm workers that have gone on, each waits. -/
theorem Sound.runAll_waits (sound : s.Sound) (m : r.Matches r fun st st' => look st = look st')
    (k : r.Keeps look) (finds : r.Finds (r.bound st) st) {workers : List (ConnectionId × Worker)}
    (distinct : (workers.map (·.1)).Nodup)
    (calm : ∀ e ∈ workers, s.worker? e.1 = some e.2 ∧ e.2.Calm)
    (mem : id ∈ workers.map (·.1)) :
    (runAll r workers s st).1.step? r id (runAll r workers s st).2 = none := by
  induction workers generalizing s st with
  | nil => cases mem
  | cons e workers ih =>
    obtain ⟨fresh, distinct⟩ := List.nodup_cons.mp distinct
    obtain ⟨here, calm_⟩ := calm e List.mem_cons_self
    have gone := goes_run r e.1 (e.2.stepBound (r.bound st)) s st
    have kept : look (s.run r e.1 (e.2.stepBound (r.bound st)) st).2 = look st := gone.keeps k
    rw [runAll_cons]
    rcases List.mem_cons.mp mem with rfl | mem
    · -- the first worker waits, and the workers after it do not touch it
      exact step?_none_congr m ((goes_runAll r workers _ _).keeps k).symm
        (worker?_runAll_ne r fresh _ _)
        (sound.run_waits m k here (calm_.within m k finds) (Nat.le_refl _))
    · have finds' : ∀ st', look st' = look st → r.Finds (r.bound st') st' := fun st' same =>
        m.bound same ▸ finds.congr m same.symm
      refine ih (gone.sound sound) (finds' _ kept) distinct (fun e' he' => ?_) mem
      have other : e'.1 ≠ e.1 := fun same =>
        fresh (List.mem_map.mpr ⟨e', he', same⟩)
      obtain ⟨here', calm'⟩ := calm e' (List.mem_cons_of_mem e he')
      exact ⟨(worker?_run_ne r _ s st other).trans here', calm'⟩

/-- **Settling.**  A service whose workers are calm settles, where every discovery ends. -/
theorem Sound.settles_settle (sound : s.Sound) (m : r.Matches r fun st st' => look st = look st')
    (k : r.Keeps look) (finds : r.Finds (r.bound st) st)
    (calm : ∀ id w, s.worker? id = some w → w.Calm) :
    Settles r s st (s.settle r st).1 (s.settle r st).2 where
  goes := goes_runAll r s.workers s st
  still id := by
    have distinct : (s.workers.map (·.1)).Nodup := sound.ascending.imp fun lt => Nat.ne_of_lt lt
    rw [settle_eq_runAll]
    by_cases mem : id ∈ s.workers.map (·.1)
    · refine sound.runAll_waits m k finds distinct (fun e he => ?_) mem
      have here : s.worker? e.1 = some e.2 := Assoc.get?_of_mem distinct he
      exact ⟨here, calm e.1 e.2 here⟩
    · refine step?_eq_none_iff.mpr fun w hw => absurd hw ?_
      rw [worker?_runAll_ne r mem, worker?, Assoc.get?_eq_none_iff.mpr]
      · exact Option.some_ne_none w ∘ Eq.symm
      · exact Assoc.contains_eq_false_iff.mpr mem

end Service

end HotReload
