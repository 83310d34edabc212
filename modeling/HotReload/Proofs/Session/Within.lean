import HotReload.Proofs.Session.Convergence
import HotReload.Proofs.Session.Passage

/-!
# How long a worker goes on

Where every discovery ends, every cycle ends or waits for a build, and a worker deals with all that
waits for it in a bounded number of steps.

* `Connection.Within`: a cycle has an outcome or waits after so many steps.
* `Worker.Within`: a worker waits after so many steps.
* `Worker.Calm.within`: the bound on the steps of a worker that was waiting before.
-/

namespace HotReload

variable {σ α : Type} {r : Resolver σ} {look : σ → α} {st st' : σ}

/-- Every discovery ends within `n` questions. -/
def Resolver.Finds (r : Resolver σ) (n : Nat) (st : σ) : Prop :=
  ∀ platform entry, ((Search.start platform entry).run r n st).1.isSome = true

theorem Resolver.Finds.congr (m : r.Matches r fun st st' => look st = look st') {n : Nat}
    (h : r.Finds n st) (same : look st = look st') : r.Finds n st' := by
  intro platform entry
  have found := congrArg Option.isSome (m.run n (Search.start platform entry) same).1
  rw [Option.isSome_map, Option.isSome_map] at found
  exact found.symm.trans (h platform entry)

namespace Progress

theorem run_graph_isSome {n : Nat} {st : σ} (finds : r.Finds n st) (s : Session) (change : Change) :
    ((probing (.graph (Search.start s.platform s.entry))).run r s change n st).1.isSome = true := by
  have found := finds s.platform s.entry
  rw [run_graph]
  generalize (Search.start s.platform s.entry).run r n st = found_ at found ⊢
  obtain ⟨_ | fault | g, st₁⟩ := found_
  · cases found
  · rfl
  · rfl

theorem run_dependencies_isSome (m : r.Matches r fun st st' => look st = look st')
    (k : r.Keeps look) {n : Nat} (finds : r.Finds n st) (s : Session) (change : Change)
    (module : Module) :
    ((probing (.dependencies module)).run r s change (n + 1) st).1.isSome = true := by
  have kept := k.dependencies ⟨s.platform, change.path, s.entry⟩ st
  unfold run
  simp only [Probe.next, Query.answer]
  split
  · rw [run_settled]
    rfl
  · split
    · rw [run_settled]
      rfl
    · exact run_graph_isSome (finds.congr m kept.symm) s change

/-- The reaction to a change is found with one question more than a graph. -/
theorem run_start_isSome (m : r.Matches r fun st st' => look st = look st') (k : r.Keeps look)
    {n : Nat} (finds : r.Finds n st) (s : Session) (change : Change) :
    ((start s change).run r s change (n + 1) st).1.isSome = true := by
  have settled : ∀ verdict, ((settled verdict).run r s change (n + 1) st).1.isSome = true := by
    intro verdict
    rw [run_settled]
    rfl
  unfold start
  split
  · exact settled _
  · split
    · exact settled _
    · split
      · split <;> exact settled _
      · split
        · exact settled _
        · exact settled _
        · exact run_dependencies_isSome m k finds s change _

end Progress

namespace Connection

/-- A cycle has an outcome, or waits, after at most `n` steps. -/
def Within (r : Resolver σ) : Nat → Connection → σ → Prop
  | 0, c, st => c.step? r st = none
  | n + 1, c, st => ∀ moved st', c.step? r st = some (moved, st') → moved.2 = none →
    Within r n moved.1 st'

theorem Within.mono {c : Connection} {n n' : Nat} (h : Within r n c st) (le : n ≤ n') :
    Within r n' c st := by
  induction n' generalizing n c st with
  | zero =>
    obtain rfl : n = 0 := Nat.le_zero.mp le
    exact h
  | succ n' ih =>
    intro moved st₁ hs going
    cases n with
    | zero =>
      rw [show c.step? r st = none from h] at hs
      cases hs
    | succ n => exact ih (h moved st₁ hs going) (Nat.le_of_succ_le_succ le)

theorem Within.congr (m : r.Matches r fun st st' => look st = look st') {n : Nat} {c : Connection}
    (h : Within r n c st) (same : look st = look st') : Within r n c st' := by
  induction n generalizing c st st' with
  | zero =>
    rcases c.step?_matches m same with ⟨-, hs'⟩ | ⟨moved, st₁, st₁', hs, -, -⟩
    · exact hs'
    · rw [show c.step? r st = none from h] at hs
      cases hs
  | succ n ih =>
    intro moved' st₂ hs₂ going
    rcases c.step?_matches m same with ⟨-, hs'⟩ | ⟨moved, st₁, st₁', hs, hs', same₁⟩
    · rw [hs'] at hs₂
      cases hs₂
    · rw [hs'] at hs₂
      cases hs₂
      exact ih (h moved' st₁ hs going) same₁

theorem conclude_outcome (c : Connection) (result : Except UpdateFault (Option Payload)) :
    (c.conclude result).2 ≠ none := by
  intro none_
  have ends := conclude_ends c result
  generalize c.conclude result = moved at ends none_
  cases ends <;> cases none_

theorem within_building {c : Connection} {job : BuildJob} (h : c.cycle = some (.building job))
    (st : σ) : Within r 1 c st := by
  intro moved st₁ hs going
  rw [step?, h] at hs
  simp only at hs
  split at hs
  · cases hs
  · next answer _ _ =>
    cases hs
    cases answer <;> exact absurd going (conclude_outcome c _)

theorem within_ordering {c : Connection} {job : BuildJob} (h : c.cycle = some (.ordering job))
    (st : σ) : Within r 2 c st := by
  intro moved st₁ hs _
  rw [step?, h] at hs
  cases hs
  exact within_building rfl _

theorem within_act (c : Connection) (reaction : Reaction) (going : (c.act reaction).2 = none)
    (st : σ) : Within r 2 (c.act reaction).1 st := by
  cases reaction with
  | irrelevant => exact absurd going (conclude_outcome c _)
  | deleted m => exact absurd going (conclude_outcome c _)
  | rebuild modules =>
    simp only [act] at going ⊢
    split
    · next none_ =>
      rw [none_] at going
      exact absurd going (conclude_outcome c _)
    · exact within_ordering rfl st

/-- **A cycle whose questions come to an end** does. -/
theorem within_advance {fuel : Nat} {c : Connection} {change : Change} {progress : Progress}
    (ends : (progress.run r c.session change fuel st).1.isSome = true)
    (going : (c.advance change progress).2 = none) :
    Within r (fuel + 2) (c.advance change progress).1 st := by
  induction fuel generalizing c progress st with
  | zero =>
    match progress with
    | .probing probe => cases ends
    | .settled (.error fault) => exact absurd going (conclude_outcome c _)
    | .settled (.ok (g, reaction)) => exact within_act _ reaction going st
  | succ fuel ih =>
    match progress with
    | .probing probe =>
      intro moved st₁ hs going₁
      cases hs
      exact ih ends going₁
    | .settled (.error fault) => exact absurd going (conclude_outcome c _)
    | .settled (.ok (g, reaction)) => exact (within_act _ reaction going st).mono (by omega)

/-- A change that is taken up is dealt with, or its cycle waits, in a bounded number of steps. -/
theorem within_handle (m : r.Matches r fun st st' => look st = look st') (k : r.Keeps look)
    {n : Nat} (finds : r.Finds n st) {c : Connection} {change : Change}
    (going : (c.handle change).2 = none) : Within r (n + 3) (c.handle change).1 st := by
  unfold handle at going ⊢
  split at going
  · cases going
  · next open_ =>
    rw [if_neg open_]
    split at going
    · cases going
    · next relevant =>
      rw [if_neg relevant]
      rcases send_cases { c with phase := .awaiting } .updateStart
        (fun c => c.advance change (Progress.start c.session change)) with h | ⟨sink, -, h⟩
      · rw [h] at going
        cases going
      · rw [h] at going ⊢
        exact within_advance (Progress.run_start_isSome m k finds c.session change) going

end Connection

namespace Connection

/-- A step of a cycle does not change how the files look. -/
theorem step?_keeps (k : r.Keeps look) {c : Connection} {moved : Moved}
    (h : c.step? r st = some (moved, st')) : look st' = look st := by
  unfold step? at h
  split at h
  · cases h
  · next change probe _ =>
    cases h
    exact k.answer _ st
  · next job _ =>
    cases h
    exact k.order job st
  · next job _ =>
    have kept := k.deliver job st
    split at h
    · cases h
    · next hd =>
      cases h
      rw [hd] at kept
      exact kept

end Connection

namespace Worker

variable {w w' : Worker} {n : Nat}

theorem heard_of_going (going : w.exit = none) : w.heard = w := by
  simp [heard, farewell?, going]

theorem heard_exit (w : Worker) : w.heard.exit = w.exit := by
  unfold heard
  split <;> rfl

/-- A worker that has stopped, or was not started, waits. -/
theorem next?_of_not_live (h : ¬ w.Live) (st : σ) : w.next? r st = none := by
  cases next : w.next? r st with
  | none => rfl
  | some w' =>
    obtain ⟨⟨w₁, st₁⟩, hs, -⟩ := Option.map_eq_some_iff.mp next
    obtain ⟨deeds, does⟩ := step?_iff.mp hs
    exact absurd does.live h

/-- A worker waits after at most `n` steps. -/
def Within (r : Resolver σ) (st : σ) : Nat → Worker → Prop
  | 0, w => w.next? r st = none
  | n + 1, w => ∀ w', w.next? r st = some w' → Within r st n w'

theorem Within.mono {n' : Nat} (h : Within r st n w) (le : n ≤ n') : Within r st n' w := by
  induction n' generalizing n w with
  | zero =>
    obtain rfl : n = 0 := Nat.le_zero.mp le
    exact h
  | succ n' ih =>
    intro w₁ next
    cases n with
    | zero =>
      rw [show w.next? r st = none from h] at next
      cases next
    | succ n => exact ih (h w₁ next) (Nat.le_of_succ_le_succ le)

theorem Within.congr (m : r.Matches r fun st st' => look st = look st') (h : Within r st n w)
    (same : look st = look st') : Within r st' n w := by
  induction n generalizing w with
  | zero => exact (next?_congr m same w).symm.trans h
  | succ n ih => exact fun w₁ next => ih (h w₁ ((next?_congr m same w).trans next))

theorem within_of_exit (stopped : w.exit.isSome = true) (n : Nat) (st : σ) : Within r st n w := by
  have waits : Within r st 0 w := next?_of_not_live (fun live => by simp [live.going] at stopped) st
  exact waits.mono (Nat.zero_le n)

/-- What is left to do with the changes that wait, once there is an outcome for the one in hand. -/
theorem within_absorb {q : Nat} {moved : Connection.Moved}
    (whole : moved.Whole) (outcome : moved.2 ≠ none)
    (idle : ∀ v : Worker, v.queue = w.queue → v.connection.cycle = none → Within r st q v) :
    Within r st q (w.absorb moved).heard := by
  cases hexit : (w.absorb moved).exit with
  | some exit => exact within_of_exit (by rw [heard_exit, hexit]; rfl) q st
  | none =>
    rw [heard_of_going hexit]
    refine idle _ (absorb_queue hexit) ?_
    rw [absorb_connection]
    unfold Connection.Moved.Whole at whole
    cases h : moved.2 with
    | none => exact absurd h outcome
    | some _ => simpa [h] using whole

/-- The next step of a worker with a change in hand is one of its cycle. -/
theorem next?_busy {cycle : Cycle} {w₁ : Worker} (busy : w.connection.cycle = some cycle)
    (next : w.next? r st = some w₁) :
    ∃ moved st₁, w.connection.step? r st = some (moved, st₁) ∧ w₁ = (w.absorb moved).heard ∧
      w.exit = none := by
  obtain ⟨⟨v, st₁⟩, hs, rfl⟩ := Option.map_eq_some_iff.mp next
  obtain ⟨deeds, does⟩ := step?_iff.mp hs
  cases does with
  | take _ idle => simp [idle] at busy
  | go live hs => exact ⟨_, _, hs, rfl, live.going⟩
  | dry _ idle => simp [idle] at busy

/-- The next step of a worker with nothing in hand takes a change, or it is the last one. -/
theorem next?_idle {w₁ : Worker} (idle : w.connection.cycle = none)
    (next : w.next? r st = some w₁) :
    (∃ change queue, w.queue = change :: queue ∧
      w₁ = ({ w with queue }.absorb (w.connection.handle change)).heard ∧ w.exit = none) ∨
    w₁.exit.isSome = true := by
  obtain ⟨⟨v, st₁⟩, hs, rfl⟩ := Option.map_eq_some_iff.mp next
  obtain ⟨deeds, does⟩ := step?_iff.mp hs
  cases does with
  | take live _ waiting => exact .inl ⟨_, _, waiting, rfl, live.going⟩
  | go _ hs =>
    have busy := Connection.isSome_of_step? hs
    rw [idle] at busy
    cases busy
  | dry =>
    refine .inr ?_
    rw [heard_exit]
    rfl

/-- A worker with a change in hand: its cycle, and then what waits. -/
theorem within_busy (m : r.Matches r fun st st' => look st = look st') (k : r.Keeps look)
    {b q : Nat}
    (idle : ∀ v : Worker, v.queue = w.queue → v.connection.cycle = none → Within r st q v)
    (busy : w.connection.Within r b st) : Within r st (b + q) w := by
  induction b generalizing w with
  | zero =>
    rw [Nat.zero_add]
    cases hc : w.connection.cycle with
    | none => exact idle w rfl hc
    | some cycle =>
      have waits : Within r st 0 w := by
        cases next : w.next? r st with
        | none => exact next
        | some w₁ =>
          obtain ⟨moved, st₁, hs, -⟩ := next?_busy hc next
          rw [show w.connection.step? r st = none from busy] at hs
          cases hs
      exact waits.mono (Nat.zero_le q)
  | succ b ih =>
    cases hc : w.connection.cycle with
    | none => exact (idle w rfl hc).mono (Nat.le_add_left q _)
    | some cycle =>
      rw [Nat.succ_add]
      intro w₁ next
      obtain ⟨moved, st₁, hs, rfl, going⟩ := next?_busy hc next
      -- with an outcome only the waiting changes are left; without one the cycle goes on
      cases outcome : moved.2 with
      | some o =>
        exact (within_absorb (Connection.step?_whole hs) (by simp [outcome]) idle).mono
          (Nat.le_add_left q b)
      | none =>
        have still : (w.absorb moved).exit = none := by rw [absorb_exit going, outcome]; rfl
        rw [heard_of_going still]
        refine ih (fun v hv => idle v (hv.trans (absorb_queue still))) ?_
        rw [absorb_connection]
        exact (busy moved st₁ hs outcome).congr m (Connection.step?_keeps k hs)

/-- A worker with nothing in hand: each change that waits takes a look, a lookup, a discovery, an
order and a delivery. -/
theorem within_idle (m : r.Matches r fun st st' => look st = look st') (k : r.Keeps look)
    (finds : r.Finds n st) (idle : w.connection.cycle = none) :
    Within r st (w.queue.length * (n + 4) + 1) w := by
  generalize hq : w.queue = queue
  induction queue generalizing w with
  | nil =>
    intro w₁ next
    rcases next?_idle idle next with ⟨change, queue, some_, -⟩ | stopped
    · rw [hq] at some_
      cases some_
    · exact within_of_exit stopped _ st
  | cons first queue ih =>
    intro w₁ next
    rcases next?_idle idle next with ⟨change, rest, some_, rfl, going⟩ | stopped
    · rw [hq] at some_
      obtain ⟨rfl, rfl⟩ := List.cons.inj some_
      have rest_idle : ∀ v : Worker, v.queue = queue → v.connection.cycle = none →
          Within r st (queue.length * (n + 4) + 1) v := fun v hv idle => ih idle hv
      -- the change is dealt with at once, or its cycle takes at most `n + 3` steps more
      cases outcome : (w.connection.handle first).2 with
      | some o =>
        refine (within_absorb (Connection.handle_whole idle first) (by simp [outcome])
          rest_idle).mono ?_
        simp only [List.length_cons, Nat.succ_mul]
        omega
      | none =>
        have still : ({ w with queue }.absorb (w.connection.handle first)).exit = none := by
          rw [absorb_exit (by exact going), outcome]
          rfl
        rw [heard_of_going still]
        refine (within_busy m k (fun v hv => rest_idle v (hv.trans (absorb_queue still))) ?_).mono
          (?_ : n + 3 + (queue.length * (n + 4) + 1) ≤ _)
        · rw [absorb_connection]
          exact Connection.within_handle m k finds outcome
        · simp only [List.length_cons, Nat.succ_mul]
          omega
    · exact within_of_exit stopped _ st

/-! ### Workers that were waiting -/

/-- A worker has nothing in hand, or a build that is ordered. -/
def Calm (w : Worker) : Prop :=
  w.Live → w.connection.cycle = none ∨ ∃ job, w.connection.cycle = some (.building job)

/-- A worker that waits is calm. -/
theorem calm_of_waits (waits : w.next? r st = none) : w.Calm := by
  intro live
  rcases waits_for live (next?_eq_none_iff.mp waits) with ⟨job, busy, -⟩ | ⟨idle, -⟩
  · exact .inr ⟨job, busy⟩
  · exact .inl idle

/-- **A calm worker waits within the bound on its steps.** -/
theorem Calm.within (h : w.Calm) (m : r.Matches r fun st st' => look st = look st')
    (k : r.Keeps look) (finds : r.Finds n st) : Within r st (w.stepBound n) w := by
  have bound : w.stepBound n = n + 4 + (w.queue.length * (n + 4) + 1) := by
    rw [stepBound, Nat.succ_mul]
    omega
  rw [bound]
  by_cases live : w.Live
  · rcases h live with idle | ⟨job, busy⟩
    · exact (within_idle m k finds idle).mono (Nat.le_add_left _ _)
    · have rest : ∀ v : Worker, v.queue = w.queue → v.connection.cycle = none →
          Within r st (w.queue.length * (n + 4) + 1) v := fun v hv idle =>
        hv ▸ within_idle m k finds idle
      exact (within_busy m k rest (Connection.within_building busy st)).mono (by omega)
  · have waits : Within r st 0 w := next?_of_not_live live st
    exact waits.mono (Nat.zero_le _)

end Worker

end HotReload
