import HotReload.Graph.Rank

/-!
# Looking modules up

* `isSome_moduleAt?`: a graph has a module at a path or it does not contain the path.
* `not_mem_addedSince_self`: a graph adds nothing to itself.
* `mem_orderLeafFirst`: sorting by rank keeps the modules.
-/

namespace HotReload.Graph

theorem isSome_moduleAt? (g : Graph) (p : Path) : (g.moduleAt? p).isSome = g.containsPath p := by
  rw [Bool.eq_iff_iff, moduleAt?, containsPath, List.find?_isSome, List.any_eq_true]
  simp only [List.mem_reverse]

theorem containsPath_of_moduleAt? {g : Graph} {p : Path} {m : Module}
    (h : g.moduleAt? p = some m) : g.containsPath p = true := by
  rw [← isSome_moduleAt?, h]
  rfl

theorem containsPath_congr {g : Graph} {p q : Path} (same : (p == q) = true) :
    g.containsPath p = g.containsPath q := by
  have alike : ∀ m : Module, (m.path == p) = (m.path == q) := fun m => BEq.congr_right same
  simp only [containsPath, alike]

theorem containsPath_of_mem {g : Graph} {m : Module} (h : m ∈ g.modules) :
    g.containsPath m.path = true :=
  List.any_eq_true.mpr ⟨m, h, BEq.rfl⟩

theorem mem_addedSince {g before : Graph} {m : Module} :
    m ∈ g.addedSince before ↔ m ∈ g.modules ∧ before.containsPath m.path = false := by
  rw [addedSince, List.mem_filter, Bool.not_eq_true']

theorem not_mem_addedSince_self (g : Graph) (m : Module) : m ∉ g.addedSince g := by
  intro h
  obtain ⟨hm, hnew⟩ := mem_addedSince.mp h
  rw [containsPath_of_mem hm] at hnew
  cases hnew

theorem mem_of_moduleAt? {g : Graph} {p : Path} {m : Module} (h : g.moduleAt? p = some m) :
    m ∈ g.modules ∧ (m.path == p) = true := by
  rw [moduleAt?, List.find?_eq_some_iff_append] at h
  obtain ⟨hp, before, after, hm, -⟩ := h
  exact ⟨List.mem_reverse.mp (by rw [hm]; simp), hp⟩

theorem insertByKey_perm (e : Nat × Module) (es : List (Nat × Module)) :
    (insertByKey e es).Perm (e :: es) := by
  induction es with
  | nil => exact .refl _
  | cons e' es ih =>
    unfold insertByKey
    split
    · exact .refl _
    · exact (ih.cons e').trans (.swap e e' es)

theorem foldr_insertByKey_perm (es : List (Nat × Module)) : (es.foldr insertByKey []).Perm es := by
  induction es with
  | nil => exact .refl _
  | cons e es ih => exact (insertByKey_perm e _).trans (ih.cons e)

/-- Sorting by rank only rearranges. -/
theorem orderLeafFirst_perm (modules : List Module) (ranking : List Path) :
    (orderLeafFirst modules ranking).Perm modules := by
  -- the keys come off again after the sorting
  have h := (foldr_insertByKey_perm
    (modules.map fun m => ((rankOf? ranking m.path).getD ranking.length, m))).map (·.2)
  rwa [List.map_map, show ((·.2) ∘ fun m : Module =>
    ((rankOf? ranking m.path).getD ranking.length, m)) = id from rfl, List.map_id] at h

theorem mem_orderLeafFirst {modules : List Module} {ranking : List Path} {m : Module} :
    m ∈ orderLeafFirst modules ranking ↔ m ∈ modules :=
  (orderLeafFirst_perm modules ranking).mem_iff

end HotReload.Graph
