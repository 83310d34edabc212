import HotReload.Graph.Basic
import Mathlib.Data.List.Nodup
import Mathlib.Tactic.SplitIfs
import Mathlib.Tactic.Tauto

/-!
# Inverse maps

An inverse map has its modules in ascending order, each with those that depend on it, ascending as
well.  It is built by adding one dependency after the other; each addition puts in what it says and
nothing else.

* `InverseMap.Tells`: a map says that one module depends on another.
* `InverseMap.Ascending`: the numbers ascend.
* `InverseMap.tells_ofShallow`, `InverseMap.mem_keys_ofShallow`, `InverseMap.ascending_ofShallow`: what
  the inverse of a shallow map says.
-/

namespace HotReload.InverseMap

variable {m : InverseMap} {id k dependent x : ModuleId}

/-- The modules of which a map tells. -/
def keys (m : InverseMap) : List ModuleId := m.map (·.1)

/-- A map says that `dependent` depends on `id`. -/
def Tells (m : InverseMap) (id dependent : ModuleId) : Prop := ∃ ids, (id, ids) ∈ m ∧ dependent ∈ ids

/-- The modules ascend, and so do those that depend on each. -/
structure Ascending (m : InverseMap) : Prop where
  keys : m.keys.Pairwise (· < ·)
  dependents : ∀ e ∈ m, e.2.Pairwise (· < ·)

/-- What a map says of a module is looked up under its number. -/
theorem Ascending.mem_dependents_iff (h : m.Ascending) : x ∈ m.dependents id ↔ m.Tells id x := by
  unfold InverseMap.dependents Tells
  cases found : m.lookup id with
  | none =>
    have other := List.lookup_eq_none_iff.mp found
    refine ⟨fun mem => absurd mem List.not_mem_nil, fun ⟨ids, here, _⟩ => ?_⟩
    simpa using other _ here
  | some ids =>
    obtain ⟨before, after, split, -⟩ := List.lookup_eq_some_iff.mp found
    have here : (id, ids) ∈ m := by rw [split]; simp
    refine ⟨fun mem => ⟨ids, here, mem⟩, fun ⟨ids', there, mem⟩ => ?_⟩
    -- a number comes once
    have once : m.keys.Nodup := h.keys.imp UInt32.ne_of_lt
    cases List.inj_on_of_nodup_map once there here rfl
    exact mem

/-! ### One number in a list -/

theorem mem_insertId {ids : List ModuleId} : x ∈ insertId id ids ↔ x = id ∨ x ∈ ids := by
  induction ids with
  | nil => simp [insertId]
  | cons y ids ih =>
    unfold insertId
    split_ifs with before same
    · exact List.mem_cons
    · subst same
      simp
    · rw [List.mem_cons, ih, List.mem_cons]
      exact or_left_comm

theorem ascending_insertId {ids : List ModuleId} (h : ids.Pairwise (· < ·)) :
    (insertId id ids).Pairwise (· < ·) := by
  induction ids with
  | nil => exact List.pairwise_singleton _ _
  | cons y ids ih =>
    obtain ⟨first, rest⟩ := List.pairwise_cons.mp h
    unfold insertId
    split_ifs with before same
    · exact .cons (fun z mem => (List.mem_cons.mp mem).elim (· ▸ before)
        fun mem => UInt32.lt_trans before (first z mem)) h
    · exact h
    · refine .cons (fun z mem => ?_) (ih rest)
      rcases mem_insertId.mp mem with rfl | mem
      · exact UInt32.lt_of_le_of_ne (UInt32.not_lt.mp before) (Ne.symm same)
      · exact first z mem

/-! ### One module in a map -/

theorem keys_addKey (k : ModuleId) (m : InverseMap) : (addKey k m).keys = insertId k m.keys := by
  induction m with
  | nil => rfl
  | cons e m ih =>
    simp only [addKey, keys, List.map_cons, insertId]
    split_ifs
    · rfl
    · rfl
    · exact congrArg (e.1 :: ·) ih

/-- A module that is added has no dependents yet. -/
theorem mem_addKey {e : ModuleId × List ModuleId} (h : e ∈ addKey k m) : e ∈ m ∨ e = (k, []) := by
  induction m with
  | nil => exact .inr (List.mem_singleton.mp h)
  | cons e' m ih =>
    unfold addKey at h
    split_ifs at h
    · rcases List.mem_cons.mp h with rfl | h
      · exact .inr rfl
      · exact .inl h
    · exact .inl h
    · rcases List.mem_cons.mp h with rfl | h
      · exact .inl List.mem_cons_self
      · exact (ih h).imp_left (List.mem_cons_of_mem _)

theorem mem_addKey_of_mem {e : ModuleId × List ModuleId} (h : e ∈ m) : e ∈ addKey k m := by
  induction m with
  | nil => cases h
  | cons e' m ih =>
    unfold addKey
    split_ifs
    · exact List.mem_cons_of_mem _ h
    · exact h
    · rcases List.mem_cons.mp h with rfl | h
      · exact List.mem_cons_self
      · exact List.mem_cons_of_mem _ (ih h)

theorem tells_addKey : (addKey k m).Tells id x ↔ m.Tells id x := by
  constructor
  · rintro ⟨ids, mem, here⟩
    rcases mem_addKey mem with mem | new
    · exact ⟨ids, mem, here⟩
    · cases new
      cases here
  · rintro ⟨ids, mem, here⟩
    exact ⟨ids, mem_addKey_of_mem mem, here⟩

theorem Ascending.addKey (h : m.Ascending) (k : ModuleId) : (addKey k m).Ascending where
  keys := by
    rw [keys_addKey]
    exact ascending_insertId h.keys
  dependents e mem := by
    rcases mem_addKey mem with mem | rfl
    · exact h.dependents e mem
    · exact .nil

/-! ### One dependency -/

theorem keys_addDependent (k dependent : ModuleId) (m : InverseMap) :
    (addDependent k dependent m).keys = insertId k m.keys := by
  rw [← keys_addKey, addDependent, keys, List.map_map, keys]
  refine List.map_congr_left fun e _ => ?_
  rw [Function.comp_apply]
  split_ifs <;> rfl

/-- **One dependency is added**, and no other. -/
theorem tells_addDependent :
    (addDependent k dependent m).Tells id x ↔ m.Tells id x ∨ id = k ∧ x = dependent := by
  rw [← @tells_addKey m id k x]
  constructor
  · rintro ⟨ids, mem, here⟩
    obtain ⟨e, mem', same⟩ := List.mem_map.mp mem
    split_ifs at same with at_key
    · cases same
      rcases mem_insertId.mp here with rfl | here
      · exact .inr ⟨at_key, rfl⟩
      · exact .inl ⟨e.2, mem', here⟩
    · cases same
      exact .inl ⟨_, mem', here⟩
  · rintro (⟨ids, mem, here⟩ | ⟨rfl, rfl⟩)
    · refine ⟨if id = k then insertId dependent ids else ids,
        List.mem_map.mpr ⟨_, mem, ?_⟩, ?_⟩
      · split_ifs <;> rfl
      · split_ifs
        · exact mem_insertId.mpr (.inr here)
        · exact here
    · have there : id ∈ (addKey id m).keys := by
        rw [keys_addKey]
        exact mem_insertId.mpr (.inl rfl)
      obtain ⟨e, mem, rfl⟩ := List.mem_map.mp there
      exact ⟨insertId x e.2, List.mem_map.mpr ⟨e, mem, if_pos rfl⟩, mem_insertId.mpr (.inl rfl)⟩

theorem Ascending.addDependent (h : m.Ascending) (k dependent : ModuleId) :
    (addDependent k dependent m).Ascending where
  keys := by
    rw [keys_addDependent]
    exact ascending_insertId h.keys
  dependents e mem := by
    obtain ⟨e', mem', rfl⟩ := List.mem_map.mp mem
    split_ifs
    · exact ascending_insertId ((h.addKey k).dependents e' mem')
    · exact (h.addKey k).dependents e' mem'

/-! ### The dependencies of a module -/

/-- Records all that one module depends on. -/
def addAll (dependent : ModuleId) (ids : List ModuleId) (m : InverseMap) : InverseMap :=
  ids.foldl (fun m id => addDependent id dependent m) m

theorem tells_addAll {ids : List ModuleId} :
    (addAll dependent ids m).Tells id x ↔ m.Tells id x ∨ id ∈ ids ∧ x = dependent := by
  induction ids generalizing m with
  | nil => simp [addAll]
  | cons k ids ih =>
    rw [addAll, List.foldl_cons, ← addAll, ih, tells_addDependent, List.mem_cons]
    tauto

theorem mem_keys_addAll {ids : List ModuleId} :
    x ∈ (addAll dependent ids m).keys ↔ x ∈ ids ∨ x ∈ m.keys := by
  induction ids generalizing m with
  | nil => simp [addAll]
  | cons k ids ih =>
    rw [addAll, List.foldl_cons, ← addAll, ih, keys_addDependent, mem_insertId, List.mem_cons]
    tauto

theorem Ascending.addAll (h : m.Ascending) (dependent : ModuleId) (ids : List ModuleId) :
    (addAll dependent ids m).Ascending := by
  induction ids generalizing m with
  | nil => exact h
  | cons k ids ih => exact ih (h.addDependent k dependent)

/-! ### The inverse of a shallow map -/

section Inverse

variable {idOf : Path → Option ModuleId} {shallow : ShallowMap}

/-- One path is taken in with its dependencies, where it has a number. -/
def addEntry (idOf : Path → Option ModuleId) (m : InverseMap) (e : Path × List Path) :
    InverseMap :=
  match idOf e.1 with
  | none => m
  | some dependent => addAll dependent (e.2.filterMap idOf) (addKey dependent m)

theorem ofShallow_eq (idOf : Path → Option ModuleId) (shallow : ShallowMap) :
    ofShallow idOf shallow = shallow.foldl (addEntry idOf) [] := rfl

theorem tells_addEntry {e : Path × List Path} :
    (addEntry idOf m e).Tells id x ↔
      m.Tells id x ∨ idOf e.1 = some x ∧ ∃ d ∈ e.2, idOf d = some id := by
  unfold addEntry
  cases known : idOf e.1 with
  | none => simp
  | some dependent =>
    rw [tells_addAll, tells_addKey, List.mem_filterMap, Option.some.injEq, and_comm,
      eq_comm (a := x)]

theorem mem_keys_addEntry {e : Path × List Path} :
    id ∈ (addEntry idOf m e).keys ↔
      id ∈ m.keys ∨ (idOf e.1).isSome ∧ ∃ p ∈ e.1 :: e.2, idOf p = some id := by
  unfold addEntry
  cases known : idOf e.1 with
  | none => simp
  | some dependent =>
    rw [mem_keys_addAll, keys_addKey, mem_insertId, List.mem_filterMap]
    simp only [Option.isSome_some, true_and, List.mem_cons, exists_eq_or_imp, known,
      Option.some.injEq, @eq_comm _ id]
    rw [or_comm, or_assoc, or_left_comm]

theorem Ascending.addEntry (h : m.Ascending) (e : Path × List Path) :
    (addEntry idOf m e).Ascending := by
  unfold InverseMap.addEntry
  split
  · exact h
  · exact (h.addKey _).addAll _ _

/-- **Who depends on a module**: those that list it. -/
theorem tells_ofShallow (idOf : Path → Option ModuleId) (shallow : ShallowMap)
    (id x : ModuleId) :
    (ofShallow idOf shallow).Tells id x ↔
      ∃ e ∈ shallow, idOf e.1 = some x ∧ ∃ d ∈ e.2, idOf d = some id := by
  have fold : ∀ m : InverseMap, (shallow.foldl (addEntry idOf) m).Tells id x ↔
      m.Tells id x ∨ ∃ e ∈ shallow, idOf e.1 = some x ∧ ∃ d ∈ e.2, idOf d = some id := by
    induction shallow with
    | nil => simp
    | cons e shallow ih =>
      intro m
      rw [List.foldl_cons, ih, tells_addEntry, or_assoc]
      simp only [List.mem_cons, exists_eq_or_imp]
  have none : ¬ Tells [] id x := fun ⟨_, mem, _⟩ => List.not_mem_nil mem
  rw [ofShallow_eq, fold, or_iff_right none]

/-- **The modules of which the inverse tells**: those that have dependencies listed and those that
are listed. -/
theorem mem_keys_ofShallow (idOf : Path → Option ModuleId) (shallow : ShallowMap)
    (id : ModuleId) :
    id ∈ (ofShallow idOf shallow).keys ↔
      ∃ e ∈ shallow, (idOf e.1).isSome ∧ ∃ p ∈ e.1 :: e.2, idOf p = some id := by
  have fold : ∀ m : InverseMap, id ∈ (shallow.foldl (addEntry idOf) m).keys ↔
      id ∈ m.keys ∨ ∃ e ∈ shallow, (idOf e.1).isSome ∧ ∃ p ∈ e.1 :: e.2, idOf p = some id := by
    induction shallow with
    | nil => simp
    | cons e shallow ih =>
      intro m
      rw [List.foldl_cons, ih, mem_keys_addEntry, or_assoc]
      simp only [List.mem_cons, exists_eq_or_imp]
  rw [ofShallow_eq, fold, or_iff_right]
  exact List.not_mem_nil

theorem ascending_ofShallow (idOf : Path → Option ModuleId) (shallow : ShallowMap) :
    (ofShallow idOf shallow).Ascending := by
  have fold : ∀ m : InverseMap, m.Ascending → (shallow.foldl (addEntry idOf) m).Ascending := by
    induction shallow with
    | nil => exact fun _ h => h
    | cons e shallow ih => exact fun m h => ih _ (h.addEntry e)
  exact fold [] ⟨.nil, fun _ mem => absurd mem List.not_mem_nil⟩

end Inverse

end HotReload.InverseMap
