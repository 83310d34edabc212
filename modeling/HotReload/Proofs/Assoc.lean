import HotReload.Assoc

/-!
# Reading ordered maps

* `get?_congr`: equal keys have the same value.
* `map_insert`: `insert` commutes with a change of keys that keeps apart what was apart.
* `insert_of_not_contains`: a new key goes last.
* `get?_insert`, `get?_modify_self`, `get?_append_self`, `contains_erase`: what is under a key after
  a change.
* `Apart`: no two keys are equal, however they are spelled.
-/

namespace HotReload

instance equivBEq_prod {α β : Type} [BEq α] [BEq β] [EquivBEq α] [EquivBEq β] :
    EquivBEq (α × β) where
  symm {a b} h := by
    obtain ⟨h₁, h₂⟩ := Bool.and_eq_true_iff.mp h
    exact Bool.and_eq_true_iff.mpr ⟨BEq.symm h₁, BEq.symm h₂⟩
  trans {a b c} h h' := by
    obtain ⟨h₁, h₂⟩ := Bool.and_eq_true_iff.mp h
    obtain ⟨h₁', h₂'⟩ := Bool.and_eq_true_iff.mp h'
    exact Bool.and_eq_true_iff.mpr ⟨BEq.trans h₁ h₁', BEq.trans h₂ h₂'⟩

namespace Assoc

variable {κ α : Type} [BEq κ] {m : List (κ × α)} {k : κ}

/-- Equal keys have the same value. -/
theorem get?_congr [EquivBEq κ] {k' : κ} (h : (k == k') = true) : get? m k = get? m k' := by
  have same : ∀ e : κ × α, (e.1 == k) = (e.1 == k') := fun e => BEq.congr_right h
  simp only [get?, same]

theorem mem_of_get? {v : α} (h : get? m k = some v) : ∃ k', (k', v) ∈ m ∧ (k' == k) = true := by
  rw [get?, Option.map_eq_some_iff] at h
  obtain ⟨⟨k', v'⟩, hfind, rfl⟩ := h
  exact ⟨k', List.mem_of_find?_eq_some hfind, by simpa using List.find?_some hfind⟩

theorem exists_get?_of_mem [ReflBEq κ] {v : α} (h : (k, v) ∈ m) : ∃ v', get? m k = some v' := by
  cases hget : get? m k with
  | some v' => exact ⟨v', rfl⟩
  | none =>
    rw [get?, Option.map_eq_none_iff, List.find?_eq_none] at hget
    exact absurd BEq.rfl (hget _ h)

/-- A new key goes last. -/
theorem insert_of_not_contains {v : α} (h : contains m k = false) :
    insert m k v = m ++ [(k, v)] := by
  induction m with
  | nil => rfl
  | cons e m ih =>
    rw [contains, List.any_cons, Bool.or_eq_false_iff] at h
    obtain ⟨hk, hm⟩ := h
    rw [insert, hk, ih hm]
    rfl

/-- `insert` commutes with a change of keys that keeps apart what was apart. -/
theorem map_insert {κ' β : Type} [BEq κ'] {f : κ → κ'} (g : α → β)
    (hf : ∀ a b, (f a == f b) = (a == b)) (m : List (κ × α)) (k : κ) (v : α) :
    (insert m k v).map (Prod.map f g) = insert (m.map (Prod.map f g)) (f k) (g v) := by
  induction m with
  | nil => rfl
  | cons e m ih =>
    simp only [insert, List.map_cons, Prod.map, hf]
    split
    · rfl
    · exact congrArg (_ :: ·) ih

theorem get?_map {β : Type} (f : α → β) (m : List (κ × α)) (k : κ) :
    get? (m.map (Prod.map id f)) k = (get? m k).map f := by
  simp only [get?, List.find?_map, Option.map_map]
  rfl

theorem get?_isSome : (get? m k).isSome = contains m k := by
  rw [Bool.eq_iff_iff, get?, Option.isSome_map, List.find?_isSome, contains, List.any_eq_true]

theorem get?_eq_none_iff : get? m k = none ↔ contains m k = false := by
  rw [← get?_isSome, Option.isSome_eq_false_iff, Option.isNone_iff_eq_none]

theorem key?_eq_none_iff : key? m k = none ↔ contains m k = false := by
  rw [← get?_eq_none_iff, key?, get?, Option.map_eq_none_iff, Option.map_eq_none_iff]

theorem beq_of_key? {k' : κ} (h : key? m k = some k') : (k' == k) = true := by
  rw [key?, Option.map_eq_some_iff] at h
  obtain ⟨e, hfind, rfl⟩ := h
  simpa using List.find?_some hfind

theorem get?_cons (e : κ × α) : get? (e :: m) k = if e.1 == k then some e.2 else get? m k := by
  unfold get?
  rw [List.find?_cons]
  split <;> simp_all

theorem modify_cons (e : κ × α) (f : α → α) :
    modify (e :: m) k f = (if e.1 == k then (e.1, f e.2) else e) :: modify m k f := rfl

theorem keys_modify (f : α → α) : (modify m k f).map (·.1) = m.map (·.1) := by
  simp only [modify, List.map_map, List.map_inj_left, Function.comp_apply]
  intro e _
  split <;> rfl

theorem modify_modify (f g : α → α) : modify (modify m k f) k g = modify m k (g ∘ f) := by
  simp only [modify, List.map_map, List.map_inj_left, Function.comp_apply]
  intro e _
  split <;> simp_all

theorem get?_modify_self (f : α → α) : get? (modify m k f) k = (get? m k).map f := by
  induction m with
  | nil => rfl
  | cons e m ih =>
    rw [modify_cons, get?_cons, get?_cons, ih]
    cases h : e.1 == k <;> simp [h]

/-! ### Maps with keys that can be spelled in several ways -/

theorem key_of_mem_insert {v : α} {e : κ × α} (h : e ∈ insert m k v) :
    (∃ e' ∈ m, e'.1 = e.1) ∨ e.1 = k := by
  induction m with
  | nil =>
    rw [insert, List.mem_singleton] at h
    exact .inr (congrArg Prod.fst h)
  | cons e₁ m ih =>
    rw [insert] at h
    split at h
    · rcases List.mem_cons.mp h with rfl | h
      · exact .inl ⟨e₁, List.mem_cons_self, rfl⟩
      · exact .inl ⟨e, List.mem_cons_of_mem e₁ h, rfl⟩
    · rcases List.mem_cons.mp h with same | h
      · exact .inl ⟨e₁, List.mem_cons_self, congrArg Prod.fst same.symm⟩
      · exact (ih h).imp_left fun ⟨e', mem, same⟩ => ⟨e', List.mem_cons_of_mem e₁ mem, same⟩

/-- No two keys of the map are equal. -/
def Apart (m : List (κ × α)) : Prop := m.Pairwise fun e e' => (e.1 == e'.1) = false

theorem Apart.insert (h : Apart m) (k : κ) (v : α) : Apart (insert m k v) := by
  induction m with
  | nil => exact List.pairwise_singleton _ _
  | cons e m ih =>
    obtain ⟨first, rest⟩ := List.pairwise_cons.mp h
    rw [Assoc.insert]
    split
    · exact List.pairwise_cons.mpr ⟨first, rest⟩
    · next other =>
      refine List.pairwise_cons.mpr ⟨fun e' mem => ?_, ih rest⟩
      rcases key_of_mem_insert mem with ⟨e₁, mem₁, same⟩ | same
      · exact same ▸ first e₁ mem₁
      · exact same ▸ Bool.not_eq_true _ ▸ other

section Spelled

variable [EquivBEq κ]

/-- The value under a key after another one was put in. -/
theorem get?_insert (m : List (κ × α)) (k p : κ) (v : α) :
    get? (insert m k v) p = if k == p then some v else get? m p := by
  induction m with
  | nil => rw [insert, get?_cons]
  | cons e m ih =>
    rw [insert]
    cases he : e.1 == k with
    | true =>
      -- the key keeps its spelling, and equals what the new one equals
      simp only [if_true, get?_cons, BEq.congr_left he]
      split <;> rfl
    | false =>
      simp only [Bool.false_eq_true, if_false, get?_cons, ih]
      cases hp : e.1 == p with
      | false => rfl
      | true =>
        have other : (k == p) = false := by
          rw [← BEq.congr_right (a := k) hp, BEq.comm, he]
        rw [other]
        rfl

/-- Where no two keys are equal, what stands beside a key is under it. -/
theorem Apart.get?_eq_some_iff (h : Apart m) {v : α} :
    get? m k = some v ↔ ∃ e ∈ m, (e.1 == k) = true ∧ e.2 = v := by
  induction m with
  | nil => simp [get?]
  | cons e m ih =>
    obtain ⟨first, rest⟩ := List.pairwise_cons.mp h
    rw [get?_cons]
    cases he : e.1 == k with
    | true =>
      have last : ¬ ∃ e' ∈ m, (e'.1 == k) = true ∧ e'.2 = v := by
        rintro ⟨e', mem, same, -⟩
        have equal := BEq.trans he (BEq.symm same)
        rw [first e' mem] at equal
        cases equal
      simp [he, last]
    | false =>
      rw [if_neg Bool.false_ne_true, ih rest]
      simp [he]
end Spelled

/-! ### Maps with lawful keys -/

section Lawful

variable [LawfulBEq κ]

theorem contains_iff : contains m k = true ↔ k ∈ m.map (·.1) := by
  simp [contains]

theorem contains_eq_false_iff : contains m k = false ↔ k ∉ m.map (·.1) := by
  rw [← Bool.not_eq_true, contains_iff]

theorem mem_of_get?_eq {v : α} (h : get? m k = some v) : (k, v) ∈ m := by
  obtain ⟨k', hmem, hk⟩ := mem_of_get? h
  rwa [eq_of_beq hk] at hmem

/-- In a map whose keys are distinct, what stands beside a key is under it. -/
theorem get?_of_mem {v : α} (distinct : (m.map (·.1)).Nodup) (h : (k, v) ∈ m) :
    get? m k = some v := by
  induction m with
  | nil => cases h
  | cons e m ih =>
    obtain ⟨first, rest⟩ := List.nodup_cons.mp distinct
    rcases List.mem_cons.mp h with rfl | h
    · simp [get?_cons]
    · have other : e.1 ≠ k := by
        rintro rfl
        exact first (List.mem_map.mpr ⟨_, h, rfl⟩)
      rw [get?_cons, if_neg (by simpa using other), ih rest h]

theorem get?_modify_ne {k' : κ} (f : α → α) (h : k' ≠ k) :
    get? (modify m k f) k' = get? m k' := by
  induction m with
  | nil => rfl
  | cons e m ih =>
    have other : ¬ k = k' := fun same => h same.symm
    rw [modify_cons, get?_cons, get?_cons, ih]
    cases he : e.1 == k with
    | false => rfl
    | true => simp [eq_of_beq he, other]

/-- A key that was not in the map is found where it was added. -/
theorem get?_append_self {v : α} (h : contains m k = false) :
    get? (m ++ [(k, v)]) k = some v := by
  rw [get?, List.find?_append, Option.map_eq_none_iff.mp (get?_eq_none_iff.mpr h)]
  simp

theorem get?_append_ne {v : α} {k' : κ} (h : k' ≠ k) :
    get? (m ++ [(k, v)]) k' = get? m k' := by
  have other : (k == k') = false := beq_false_of_ne fun same => h same.symm
  rw [get?, List.find?_append, get?]
  simp [other]

/-- Taking out a key that is not in the map leaves the map as it is. -/
theorem erase_of_not_contains (h : contains m k = false) : erase m k = m := by
  rw [contains_eq_false_iff] at h
  refine List.filter_eq_self.mpr fun e he => ?_
  have other : e.1 ≠ k := fun same => h (List.mem_map.mpr ⟨e, he, same⟩)
  simpa using other

theorem contains_erase (k' : κ) : contains (erase m k) k' = (contains m k' && k' != k) := by
  rw [Bool.eq_iff_iff, Bool.and_eq_true, contains_iff, contains_iff]
  simp only [erase, List.mem_map, List.mem_filter, Bool.not_eq_true', beq_eq_false_iff_ne,
    bne_iff_ne]
  constructor
  · rintro ⟨e, ⟨hmem, hne⟩, rfl⟩
    exact ⟨⟨e, hmem, rfl⟩, hne⟩
  · rintro ⟨⟨e, hmem, rfl⟩, hne⟩
    exact ⟨e, ⟨hmem, hne⟩, rfl⟩

end Lawful

end Assoc

end HotReload
