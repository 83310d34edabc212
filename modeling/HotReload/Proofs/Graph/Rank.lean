import HotReload.Graph.Rank
import HotReload.Proofs.Graph.Alike
import Mathlib.Data.List.Sort

/-!
# The order in which paths are left

A depth-first walk leaves a path when all its dependencies were met.  At that moment the paths that
are still being walked lead from the entry to it, and whatever the paths left so far depend on was
left or is being walked.  All that is known of a ranking follows from this: a dependency that is not
on the way to a path is left before it.

* `Graph.Reaches`: what a path depends on, directly or through others.
* `Graph.Departs`: how things stand when a path is left.
* `Walk.Sound`, `Walk.Sound.step`: what holds of a walk at any time.
* `Walk.stack_run`: a walk comes to its end.
* `Graph.Ranks`, `Graph.ranks_rank`: what a ranking lists, and in which order.
* `Departs.behind`: paths that are reached through one gate are left before it.
* `Graph.orderLeafFirst_pairwise`: modules are sorted by rank.
-/

namespace HotReload.Graph

/-! ### What depends on what -/

/-- What a path depends on, directly or through others, and the path itself. -/
inductive Reaches (shallow : ShallowMap) (p : Path) : Path → Prop where
  | here {q : Path} (same : (p == q) = true) : Reaches shallow p q
  | further {q d r : Path} (below : Reaches shallow p q) (child : d ∈ children shallow q)
      (same : (d == r) = true) : Reaches shallow p r

section Reaching

variable {shallow : ShallowMap} {p q r : Path}

/-- The dependencies of a path do not depend on its spelling. -/
theorem children_congr (same : (p == q) = true) : children shallow p = children shallow q := by
  rw [children, children, Assoc.get?_congr same]

namespace Reaches

theorem same_right (h : Reaches shallow p q) (same : (q == r) = true) : Reaches shallow p r := by
  cases h with
  | here first => exact .here (BEq.trans first same)
  | further below child last => exact .further below child (BEq.trans last same)

theorem same_left (same : (r == p) = true) (h : Reaches shallow p q) : Reaches shallow r q := by
  induction h with
  | here last => exact .here (BEq.trans same last)
  | further _ child last ih => exact .further ih child last

theorem trans (h : Reaches shallow p q) (t : Reaches shallow q r) : Reaches shallow p r := by
  induction t with
  | here same => exact h.same_right same
  | further _ child same ih => exact .further ih child same

end Reaches

/-- Some paths that are reached from the entry through one path alone. -/
structure Gate (shallow : ShallowMap) (entry gate : Path) (Inner : Path → Prop) : Prop where
  congr {q r : Path} : (q == r) = true → Inner q → Inner r
  outer : ¬ Inner entry
  open_ : ¬ Inner gate
  through {q d : Path} : d ∈ children shallow q → Inner d → ¬ Inner q → (q == gate) = true

theorem Gate.spelled {entry gate : Path} {Inner : Path → Prop} (h : Gate shallow entry gate Inner)
    (same : (gate == p) = true) : Gate shallow entry p Inner where
  congr := h.congr
  outer := h.outer
  open_ inner := h.open_ (h.congr (BEq.symm same) inner)
  through child inner outer := BEq.trans (h.through child inner outer) same

/-- The paths that lead from the entry to a path, innermost first. -/
inductive Trail (shallow : ShallowMap) (entry : Path) : List Path → Prop where
  | nil : Trail shallow entry []
  | start {p : Path} (same : (p == entry) = true) : Trail shallow entry [p]
  | next {p d : Path} {trail : List Path} (rest : Trail shallow entry (p :: trail))
      (child : d ∈ children shallow p) : Trail shallow entry (d :: p :: trail)

namespace Trail

variable {entry : Path} {trail : List Path}

theorem tail (h : Trail shallow entry (p :: trail)) : Trail shallow entry trail := by
  cases h with
  | start => exact .nil
  | next rest => exact rest

/-- The entry leads to each path. -/
theorem reaches (h : Trail shallow entry trail) (mem : q ∈ trail) : Reaches shallow entry q := by
  induction h generalizing q with
  | nil => cases mem
  | start same =>
    rw [List.mem_singleton.mp mem]
    exact .here (BEq.symm same)
  | @next p d trail _ child ih =>
    rcases List.mem_cons.mp mem with rfl | mem
    · exact .further (ih List.mem_cons_self) child BEq.rfl
    · exact ih mem

/-- Each path leads to the innermost one. -/
theorem leads (h : Trail shallow entry (p :: trail)) (mem : q ∈ p :: trail) :
    Reaches shallow q p := by
  generalize whole : p :: trail = all at h mem
  induction h generalizing p trail with
  | nil => cases mem
  | start =>
    cases whole
    rw [List.mem_singleton.mp mem]
    exact .here BEq.rfl
  | next rest child ih =>
    cases whole
    rcases List.mem_cons.mp mem with rfl | mem
    · exact .here BEq.rfl
    · exact .further (ih rfl mem) child BEq.rfl

/-- A trail that does not come through the gate stays outside. -/
theorem outside {gate : Path} {Inner : Path → Prop} (h : Trail shallow entry trail)
    (alone : Gate shallow entry gate Inner) (others : ∀ q ∈ trail, (q == gate) = false) :
    ∀ q ∈ trail, ¬ Inner q := by
  induction h with
  | nil => exact fun q mem => absurd mem List.not_mem_nil
  | start same =>
    intro q mem inside
    rw [List.mem_singleton.mp mem] at inside
    exact alone.outer (alone.congr same inside)
  | @next p d trail _ child ih =>
    intro q mem inside
    have rest := ih fun r mem => others r (List.mem_cons_of_mem d mem)
    rcases List.mem_cons.mp mem with rfl | mem
    · have through := alone.through child inside (rest p List.mem_cons_self)
      rw [others p (List.mem_cons_of_mem _ List.mem_cons_self)] at through
      cases through
    · exact rest q mem inside

end Trail

end Reaching

/-! ### Leaving a path -/

/-- How things stand when a path is left after some others: the paths on the trail lead to it, and
what the paths left so far depend on was left or is on the trail. -/
structure Departs (shallow : ShallowMap) (entry : Path) (before : List Path) (p : Path)
    (trail : List Path) : Prop where
  way : Trail shallow entry (p :: trail)
  distinct : (Path.meanings (before ++ p :: trail)).Nodup
  closed : ∀ q ∈ p :: before, ∀ d ∈ children shallow q,
    (before ++ p :: trail).contains d = true

namespace Departs

variable {shallow : ShallowMap} {entry p : Path} {before trail : List Path}

/-- A dependency that does not lead back was left before. -/
theorem child (h : Departs shallow entry before p trail) {d v : Path}
    (child : d ∈ children shallow p) (same : (d == v) = true) (apart : ¬ Reaches shallow v p) :
    before.contains v = true := by
  have known := h.closed p List.mem_cons_self d child
  obtain ⟨q, mem, here⟩ := List.contains_iff_exists_mem_beq.mp known
  rcases List.mem_append.mp mem with mem | mem
  · exact List.contains_iff_exists_mem_beq.mpr ⟨q, mem, BEq.trans (BEq.symm same) here⟩
  · have back := (h.way.leads mem).same_left (BEq.trans (BEq.symm same) here)
    exact absurd back apart

/-- **Behind a gate.**  What is reached through one path alone is left before it, though it may lead
back to it. -/
theorem behind {Inner : Path → Prop} (gate : Gate shallow entry p Inner)
    (h : Departs shallow entry before p trail) {n : Path} (reached : Reaches shallow entry n)
    (inner : Inner n) : before.contains n = true := by
  have others : ∀ q ∈ trail, (q == p) = false := by
    intro q mem
    have distinct := h.distinct
    rw [Path.meanings_append, List.nodup_append] at distinct
    refine Bool.eq_false_iff.mpr fun same => (List.nodup_cons.mp distinct.2.1).1 ?_
    rw [← Path.beq_iff.mp same]
    exact List.mem_map_of_mem mem
  have outside : ∀ q ∈ p :: trail, ¬ Inner q := by
    intro q mem
    rcases List.mem_cons.mp mem with rfl | mem
    · exact gate.open_
    · exact h.way.tail.outside gate others q mem
  -- what was left or is the gate itself has no such dependency that was not left
  have left : ∀ {q d r : Path}, q ∈ p :: before → d ∈ children shallow q → (d == r) = true →
      Inner r → before.contains r = true := by
    intro q d r mem child same inside
    obtain ⟨k, mem', here⟩ := List.contains_iff_exists_mem_beq.mp (h.closed q mem d child)
    rcases List.mem_append.mp mem' with mem' | mem'
    · exact List.contains_iff_exists_mem_beq.mpr ⟨k, mem', BEq.trans (BEq.symm same) here⟩
    · exact absurd (gate.congr (BEq.trans (BEq.symm same) here) inside) (outside k mem')
  induction reached with
  | here same => exact absurd (gate.congr (BEq.symm same) inner) gate.outer
  | @further q d r _ child same ih =>
    by_cases inside : Inner q
    · obtain ⟨k, mem, here⟩ := List.contains_iff_exists_mem_beq.mp (ih inside)
      rw [children_congr here] at child
      exact left (List.mem_cons_of_mem p mem) child same inner
    · have through := gate.through child (gate.congr (BEq.symm same) inner) inside
      rw [children_congr through] at child
      exact left List.mem_cons_self child same inner

end Departs

/-! ### Walks -/

namespace Walk

variable {shallow : ShallowMap} {entry : Path} {w : Walk}

/-- The paths that are being walked, innermost first. -/
def trail (w : Walk) : List Path := w.stack.map (·.1)

/-- What holds of a walk at any time. -/
structure Sound (shallow : ShallowMap) (entry : Path) (w : Walk) : Prop where
  begun : w.met.contains entry = true
  /-- What was met was left or is being walked. -/
  met : ∀ p, w.met.contains p = (w.left ++ w.trail).contains p
  distinct : (Path.meanings (w.left ++ w.trail)).Nodup
  way : Trail shallow entry w.trail
  /-- The dependencies that are not to be visited any more were met. -/
  visited : ∀ e ∈ w.stack, ∃ seen, children shallow e.1 = seen ++ e.2 ∧
    ∀ d ∈ seen, w.met.contains d = true
  closed : ∀ p ∈ w.left, ∀ d ∈ children shallow p, w.met.contains d = true
  departs : ∀ before p after, w.left = before ++ p :: after →
    ∃ trail, Departs shallow entry before p trail

theorem Sound.start {key : Path} (same : (key == entry) = true) :
    Sound shallow entry ⟨[(key, children shallow key)], [key], []⟩ where
  begun := by rw [List.contains_cons, BEq.symm same, Bool.true_or]
  met _ := rfl
  distinct := List.nodup_singleton _
  way := .start same
  visited e mem := by
    rw [List.mem_singleton.mp mem]
    exact ⟨[], rfl, fun d mem => absurd mem List.not_mem_nil⟩
  closed p mem := absurd mem List.not_mem_nil
  departs before p after split := by simp at split

/-- The innermost path is left: all that it depends on was met. -/
theorem Sound.leave (h : w.Sound shallow entry) {p : Path} {stack : List (Path × List Path)}
    (top : w.stack = (p, []) :: stack) :
    Sound shallow entry { w with stack, left := w.left ++ [p] } := by
  have trail : w.trail = p :: stack.map (·.1) := by rw [Walk.trail, top, List.map_cons]
  have whole : w.left ++ w.trail = (w.left ++ [p]) ++ stack.map (·.1) := by
    rw [trail, List.append_assoc, List.singleton_append]
  have now : ∀ q ∈ p :: w.left, ∀ d ∈ children shallow q, w.met.contains d = true := by
    intro q mem d child
    rcases List.mem_cons.mp mem with rfl | mem
    · obtain ⟨seen, all, met⟩ := h.visited (q, []) (top ▸ List.mem_cons_self)
      rw [all, List.append_nil] at child
      exact met d child
    · exact h.closed q mem d child
  have leaving : Departs shallow entry w.left p (stack.map (·.1)) :=
    ⟨trail ▸ h.way, trail ▸ h.distinct, fun q mem d child => by
      rw [← trail, ← h.met, now q mem d child]⟩
  refine ⟨h.begun, fun q => ?_, ?_, ?_, fun e mem => ?_, fun q mem => ?_, ?_⟩
  · rw [h.met, whole]
    rfl
  · have distinct := h.distinct
    rwa [whole] at distinct
  · exact leaving.way.tail
  · exact h.visited e (top ▸ List.mem_cons_of_mem _ mem)
  · refine now q ?_
    rcases List.mem_append.mp mem with mem | mem
    · exact List.mem_cons_of_mem p mem
    · exact List.mem_cons.mpr (.inl (List.mem_singleton.mp mem))
  · intro before q after split
    rcases List.eq_nil_or_concat after with rfl | ⟨after, last, rfl⟩
    · obtain ⟨rfl, same⟩ := List.append_inj' split rfl
      cases same
      exact ⟨_, leaving⟩
    · rw [List.concat_eq_append, ← List.cons_append, ← List.append_assoc] at split
      exact h.departs before q after (List.append_inj' split rfl).1

/-- A dependency that was met is passed over. -/
theorem Sound.pass (h : w.Sound shallow entry) {p child : Path} {rest : List Path}
    {stack : List (Path × List Path)} (top : w.stack = (p, child :: rest) :: stack)
    (known : w.met.contains child = true) :
    Sound shallow entry { w with stack := (p, rest) :: stack } := by
  have trail : w.trail = p :: stack.map (·.1) := by rw [Walk.trail, top, List.map_cons]
  refine ⟨h.begun, fun q => ?_, ?_, ?_, fun e mem => ?_, h.closed, h.departs⟩
  · rw [h.met, trail]
    rfl
  · have distinct := h.distinct
    rwa [trail] at distinct
  · have t := h.way
    rwa [trail] at t
  · rcases List.mem_cons.mp mem with rfl | mem
    · obtain ⟨seen, all, met⟩ := h.visited (p, child :: rest) (top ▸ List.mem_cons_self)
      refine ⟨seen ++ [child], by rw [all]; simp, fun d mem => ?_⟩
      rcases List.mem_append.mp mem with mem | mem
      · exact met d mem
      · rwa [List.mem_singleton.mp mem]
    · exact h.visited e (top ▸ List.mem_cons_of_mem _ mem)

/-- A dependency that was not met is walked next. -/
theorem Sound.enter (h : w.Sound shallow entry) {p child : Path} {rest : List Path}
    {stack : List (Path × List Path)} (top : w.stack = (p, child :: rest) :: stack)
    (new : w.met.contains child = false) :
    Sound shallow entry
      { w with
        stack := (child, children shallow child) :: (p, rest) :: stack
        met := child :: w.met } := by
  have trail : w.trail = p :: stack.map (·.1) := by rw [Walk.trail, top, List.map_cons]
  obtain ⟨seen, all, met⟩ := h.visited (p, child :: rest) (top ▸ List.mem_cons_self)
  have later : ∀ {d : Path}, w.met.contains d = true → (child :: w.met).contains d = true := by
    intro d known
    rw [List.contains_cons, known, Bool.or_true]
  refine ⟨later h.begun, fun q => ?_, ?_, ?_, fun e mem => ?_, fun q mem d listed => ?_, h.departs⟩
  · have known := h.met q
    simp only [trail, List.contains_append, List.contains_cons] at known
    simp only [Walk.trail, List.map_cons, List.contains_append, List.contains_cons, known]
    rw [Bool.or_left_comm]
  · have unmet : child.components ∉ Path.meanings (w.left ++ w.trail) := fun mem => by
      rw [h.met, Path.contains_iff_meanings, List.contains_iff_mem.mpr mem] at new
      cases new
    have distinct := h.distinct
    rw [trail] at unmet distinct
    have once := List.nodup_cons.mpr ⟨unmet, distinct⟩
    rw [Path.meanings_append] at once ⊢
    exact (List.perm_middle.nodup_iff).mpr once
  · refine .next (trail ▸ h.way) ?_
    rw [all]
    exact List.mem_append_right _ List.mem_cons_self
  · rcases List.mem_cons.mp mem with rfl | mem
    · exact ⟨[], rfl, fun d mem => absurd mem List.not_mem_nil⟩
    · rcases List.mem_cons.mp mem with rfl | mem
      · refine ⟨seen ++ [child], by rw [all]; simp, fun d mem => ?_⟩
        rcases List.mem_append.mp mem with mem | mem
        · exact later (met d mem)
        · rw [List.mem_singleton.mp mem, List.contains_cons, BEq.rfl, Bool.true_or]
      · obtain ⟨seen, all, met⟩ := h.visited e (top ▸ List.mem_cons_of_mem _ mem)
        exact ⟨seen, all, fun d mem => later (met d mem)⟩
  · exact later (h.closed q mem d listed)

/-- **One step** keeps all of it. -/
theorem Sound.step (h : w.Sound shallow entry) : (w.step shallow).Sound shallow entry := by
  unfold Walk.step
  split
  · exact h
  · next top => exact h.leave top
  · next top =>
    split
    · next known => exact h.pass top known
    · next new => exact h.enter top (Bool.not_eq_true _ ▸ new)

theorem Sound.run (h : w.Sound shallow entry) (fuel : Nat) :
    (Walk.run shallow fuel w).Sound shallow entry := by
  induction fuel generalizing w with
  | zero => exact h
  | succ fuel ih =>
    rw [Walk.run]
    split
    · exact h
    · exact ih h.step

/-! ### The end of a walk -/

/-- The steps that the paths that were not met can still take. -/
def ahead (met : List Path) : ShallowMap → Nat
  | [] => 0
  | e :: shallow => (if met.contains e.1 then 0 else 2 * e.2.length) + ahead met shallow

/-- The steps that the paths on a stack can still take. -/
def upon : List (Path × List Path) → Nat
  | [] => 0
  | e :: stack => 2 * e.2.length + 1 + upon stack

/-- The steps that a walk can still take. -/
def todo (shallow : ShallowMap) (w : Walk) : Nat := upon w.stack + ahead w.met shallow

theorem ahead_nil (shallow : ShallowMap) :
    ahead [] shallow = 2 * (shallow.flatMap (·.2)).length := by
  induction shallow with
  | nil => rfl
  | cons e shallow ih =>
    rw [ahead, ih, List.flatMap_cons, List.length_append, Nat.mul_add]
    rfl

theorem ahead_cons_le (met : List Path) (p : Path) (shallow : ShallowMap) :
    ahead (p :: met) shallow ≤ ahead met shallow := by
  induction shallow with
  | nil => exact Nat.le_refl 0
  | cons e shallow ih =>
    rw [ahead, ahead, List.contains_cons]
    refine Nat.add_le_add ?_ ih
    cases e.1 == p <;> simp

/-- A path that is met takes its steps out of those that are ahead. -/
theorem ahead_cons {met : List Path} {p : Path} (new : met.contains p = false)
    (shallow : ShallowMap) :
    ahead (p :: met) shallow + 2 * (children shallow p).length ≤ ahead met shallow := by
  induction shallow with
  | nil => exact Nat.le_refl 0
  | cons e shallow ih =>
    rw [ahead, ahead, children, Assoc.get?_cons, List.contains_cons]
    cases same : e.1 == p with
    | true =>
      have unmet : met.contains e.1 = false := by
        rw [Path.contains_congr met same, new]
      have less := ahead_cons_le met p shallow
      simp only [unmet, Bool.true_or, if_true, Option.getD_some, Bool.false_eq_true, if_false]
      omega
    | false =>
      rw [children] at ih
      simp only [Bool.false_or, Bool.false_eq_true, if_false]
      omega

/-- Each step is one less. -/
theorem todo_step (going : w.stack ≠ []) : (w.step shallow).todo shallow < w.todo shallow := by
  unfold Walk.step
  split
  · next none => exact absurd none going
  · next top => simp [todo, top, upon]
  · next p child rest stack top =>
    split
    · simp [todo, top, upon]
    · next new =>
      have less := ahead_cons (Bool.not_eq_true _ ▸ new) shallow
      simp only [todo, top, upon, List.length_cons]
      omega

/-- **A walk comes to its end.** -/
theorem stack_run (fuel : Nat) (enough : w.todo shallow ≤ fuel) :
    (Walk.run shallow fuel w).stack = [] := by
  induction fuel generalizing w with
  | zero =>
    cases top : w.stack with
    | nil => exact top
    | cons e stack =>
      simp only [todo, top, upon] at enough
      omega
  | succ fuel ih =>
    rw [Walk.run]
    split
    · next ended => exact List.isEmpty_iff.mp ended
    · next going =>
      have less : (w.step shallow).todo shallow < w.todo shallow :=
        todo_step fun none => going (List.isEmpty_iff.mpr none)
      exact ih (by omega)

theorem todo_start (shallow : ShallowMap) (key : Path) :
    todo shallow ⟨[(key, children shallow key)], [key], []⟩ ≤ walkBound shallow := by
  have less : ahead [key] shallow + 2 * (children shallow key).length ≤ ahead [] shallow :=
    ahead_cons rfl shallow
  rw [ahead_nil] at less
  simp only [todo, upon, walkBound]
  omega

end Walk

/-! ### Rankings -/

/-- A ranking lists what the entry reaches, each path once, and each in its place. -/
structure Ranks (shallow : ShallowMap) (entry : Path) (ranking : List Path) : Prop where
  distinct : (Path.meanings ranking).Nodup
  contains_iff : ∀ p, ranking.contains p = true ↔ Reaches shallow entry p
  departs : ∀ before p after, ranking = before ++ p :: after →
    ∃ trail, Departs shallow entry before p trail

/-- **The ranking of a map** that has the entry. -/
theorem ranks_rank {shallow : ShallowMap} {entry : Path}
    (known : Assoc.contains shallow entry = true) : Ranks shallow entry (rank entry shallow) := by
  obtain ⟨key, found⟩ : ∃ key, Assoc.key? shallow entry = some key := by
    refine Option.ne_none_iff_exists'.mp fun none => ?_
    rw [Assoc.key?_eq_none_iff, known] at none
    cases none
  have same := Assoc.beq_of_key? found
  rw [rank, found]
  have ended := Walk.stack_run _ (Walk.todo_start shallow key)
  have sound : Walk.Sound shallow entry _ := (Walk.Sound.start same).run (walkBound shallow)
  simp only
  generalize Walk.run shallow (walkBound shallow) _ = w at ended sound
  have none : w.trail = [] := by rw [Walk.trail, ended, List.map_nil]
  have met : ∀ p, w.met.contains p = w.left.contains p := fun p => by
    rw [sound.met, none, List.append_nil]
  have distinct := sound.distinct
  rw [none, List.append_nil] at distinct
  refine ⟨distinct, fun p => ⟨fun listed => ?_, fun reached => ?_⟩, sound.departs⟩
  · obtain ⟨q, mem, here⟩ := List.contains_iff_exists_mem_beq.mp listed
    obtain ⟨before, after, split⟩ := List.append_of_mem mem
    obtain ⟨trail, leaving⟩ := sound.departs before q after split
    exact (leaving.way.reaches List.mem_cons_self).same_right (BEq.symm here)
  · rw [← met]
    induction reached with
    | here same => rw [← Path.contains_congr w.met same, sound.begun]
    | further _ child same ih =>
      rw [met] at ih
      obtain ⟨k, mem, here⟩ := List.contains_iff_exists_mem_beq.mp ih
      rw [children_congr here] at child
      rw [← Path.contains_congr w.met same, sound.closed k mem _ child]

/-- The place of a path that is listed. -/
theorem rankOf?_of_split {before after : List Path} {p q : Path}
    (distinct : (Path.meanings (before ++ p :: after)).Nodup) (same : (p == q) = true) :
    rankOf? (before ++ p :: after) q = some before.length := by
  have others : before.findIdx? (· == q) = none := by
    rw [List.findIdx?_eq_none_iff]
    intro r mem
    rw [Path.meanings_append, List.nodup_append] at distinct
    refine Bool.eq_false_iff.mpr fun here => ?_
    have equal : r.components = p.components :=
      (Path.beq_iff.mp here).trans (Path.beq_iff.mp same).symm
    exact distinct.2.2 _ (List.mem_map_of_mem mem) _ List.mem_cons_self equal
  simp [rankOf?, List.findIdx?_append, others, List.findIdx?_cons, same]

/-- What is listed before has a smaller rank. -/
theorem rankOf?_of_contains {before after : List Path} {q : Path}
    (listed : before.contains q = true) :
    ∃ place, rankOf? (before ++ after) q = some place ∧ place < before.length := by
  obtain ⟨k, mem, here⟩ := List.contains_iff_exists_mem_beq.mp listed
  cases found : before.findIdx? (· == q) with
  | none =>
    have other := List.findIdx?_eq_none_iff.mp found k mem
    rw [BEq.symm here] at other
    cases other
  | some place =>
    refine ⟨place, by simp [rankOf?, List.findIdx?_append, found], ?_⟩
    exact (List.findIdx?_eq_some_iff_getElem.mp found).1

/-! ### Sorting by rank -/

/-- The rank of a module; one without a rank goes behind all others. -/
def place (ranking : List Path) (m : Module) : Nat :=
  (rankOf? ranking m.path).getD ranking.length

theorem insertByKey_eq (e : Nat × Module) (es : List (Nat × Module)) :
    insertByKey e es = es.orderedInsert (fun a b => a.1 ≤ b.1) e := by
  induction es with
  | nil => rfl
  | cons e' es ih => simp only [insertByKey, List.orderedInsert_cons, ih]

/-- **Modules are sorted** by rank. -/
theorem orderLeafFirst_pairwise (modules : List Module) (ranking : List Path) :
    (orderLeafFirst modules ranking).Pairwise fun m n => place ranking m ≤ place ranking n := by
  have sorts : ∀ es : List (Nat × Module), es.foldr insertByKey [] =
      es.insertionSort fun a b => a.1 ≤ b.1 := fun es => by
    rw [List.insertionSort, show insertByKey = _ from funext₂ insertByKey_eq]
  have keyed : ∀ e ∈ modules.map fun m => ((rankOf? ranking m.path).getD ranking.length, m),
      e.1 = place ranking e.2 := by
    intro e mem
    obtain ⟨m, -, rfl⟩ := List.mem_map.mp mem
    rfl
  rw [orderLeafFirst, sorts, List.pairwise_map]
  refine List.Pairwise.imp_of_mem (fun a b order => ?_) (List.pairwise_insertionSort _ _)
  rw [List.mem_insertionSort] at a b
  rwa [← keyed _ a, ← keyed _ b]

/-- Of two modules in a sorted list the one with the smaller rank comes first. -/
theorem sublist_of_place_lt {ranking : List Path} {modules : List Module}
    (sorted : modules.Pairwise fun m n => place ranking m ≤ place ranking n) {u v : Module}
    (memv : v ∈ modules) (memu : u ∈ modules) (less : place ranking v < place ranking u) :
    [v, u].Sublist modules := by
  obtain ⟨before, after, rfl⟩ := List.append_of_mem memu
  rw [List.pairwise_append, List.pairwise_cons] at sorted
  rcases List.mem_append.mp memv with memv | memv
  · have first : [v].Sublist before := List.singleton_sublist.mpr memv
    exact first.append (List.singleton_sublist.mpr List.mem_cons_self)
  · rcases List.mem_cons.mp memv with rfl | memv
    · exact absurd less (Nat.lt_irrefl _)
    · exact absurd (sorted.2.1.1 v memv) (Nat.not_le.mpr less)

/-! ### The rank of a module -/

namespace Ranks

variable {shallow : ShallowMap} {entry : Path} {ranking : List Path} {u v : Module}

/-- Each path that is reached was left at some time. -/
theorem exists_departs (h : Ranks shallow entry ranking) {q : Path}
    (reached : Reaches shallow entry q) :
    ∃ before p after trail, ranking = before ++ p :: after ∧ (p == q) = true ∧
      Departs shallow entry before p trail := by
  obtain ⟨p, listed, same⟩ := List.contains_iff_exists_mem_beq.mp ((h.contains_iff q).mpr reached)
  obtain ⟨before, after, split⟩ := List.append_of_mem listed
  obtain ⟨trail, leaving⟩ := h.departs before p after split
  exact ⟨before, p, after, trail, split, BEq.symm same, leaving⟩

/-- A module whose path was left before has the smaller rank. -/
theorem place_lt (h : Ranks shallow entry ranking) {before after : List Path} {p : Path}
    (split : ranking = before ++ p :: after) (here : (p == u.path) = true)
    (left : before.contains v.path = true) : place ranking v < place ranking u := by
  subst split
  obtain ⟨i, first, less⟩ : ∃ i, rankOf? (before ++ p :: after) v.path = some i ∧
      i < before.length := rankOf?_of_contains left
  rw [place, place, first, rankOf?_of_split h.distinct here]
  exact less

/-- **Dependencies first:** what a module imports has a smaller rank, unless it leads back. -/
theorem place_lt_of_child (h : Ranks shallow entry ranking) (reached : Reaches shallow entry u.path)
    {d : Path} (child : d ∈ children shallow u.path) (same : (d == v.path) = true)
    (apart : ¬ Reaches shallow v.path u.path) : place ranking v < place ranking u := by
  obtain ⟨before, p, after, trail, split, here, leaving⟩ := h.exists_departs reached
  rw [← children_congr here] at child
  exact h.place_lt split here (leaving.child child same fun back => apart (back.same_right here))

/-- **What is behind a gate** has a smaller rank than the gate. -/
theorem place_lt_of_gate {Inner : Path → Prop} (h : Ranks shallow entry ranking)
    (gate : Gate shallow entry u.path Inner) (reached : Reaches shallow entry u.path)
    (inside : Reaches shallow entry v.path) (inner : Inner v.path) :
    place ranking v < place ranking u := by
  obtain ⟨before, p, after, trail, split, here, leaving⟩ := h.exists_departs reached
  exact h.place_lt split here (leaving.behind (gate.spelled (BEq.symm here)) inside inner)

end Ranks

end HotReload.Graph
