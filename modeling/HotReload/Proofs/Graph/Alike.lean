import HotReload.Proofs.Assoc
import HotReload.Proofs.Graph.Lookup

/-!
# Graphs that differ in spelling alone

Paths are compared by their components, and so are graphs: two graphs are alike where they have
the same modules in the same order and the same dependencies, each path with the same components.
Whatever is asked of a graph, graphs that are alike have the same answer.

* `Graph.Alike.moduleAt?_id`: the number of the module at a path.
* `Graph.Alike.inverse`: the inverse map.
-/

namespace HotReload

/-- The components of several paths. -/
def Path.meanings (ps : List Path) : List (List Path.Component) := ps.map Path.components

@[simp] theorem Path.meanings_append (ps qs : List Path) :
    meanings (ps ++ qs) = meanings ps ++ meanings qs := List.map_append

theorem Path.beq_iff_meanings {ps qs : List Path} :
    (ps == qs) = true ↔ meanings ps = meanings qs := by
  induction ps generalizing qs with
  | nil => cases qs <;> simp [meanings]
  | cons p ps ih =>
    cases qs with
    | nil => simp [meanings]
    | cons q qs =>
      rw [List.cons_beq_cons, Bool.and_eq_true_iff, Path.beq_iff, ih]
      simp [meanings]

instance equivBEq_paths : EquivBEq (List Path) where
  rfl := Path.beq_iff_meanings.mpr rfl
  symm h := Path.beq_iff_meanings.mpr (Path.beq_iff_meanings.mp h).symm
  trans h h' :=
    Path.beq_iff_meanings.mpr ((Path.beq_iff_meanings.mp h).trans (Path.beq_iff_meanings.mp h'))

theorem Path.contains_iff_meanings (ps : List Path) (p : Path) :
    ps.contains p = (meanings ps).contains p.components := by
  induction ps with
  | nil => rfl
  | cons q ps ih =>
    rw [List.contains_cons, ih]
    rfl

/-- Whether a path is listed does not depend on its spelling. -/
theorem Path.contains_congr (ps : List Path) {p q : Path} (same : (p == q) = true) :
    ps.contains p = ps.contains q := by
  rw [contains_iff_meanings, contains_iff_meanings, beq_iff.mp same]

/-- A path that is listed has a place. -/
theorem Path.contains_eq_isSome (ps : List Path) (p : Path) :
    ps.contains p = (ps.findIdx? (· == p)).isSome := by
  rw [List.findIdx?_isSome, Bool.eq_iff_iff, List.contains_iff_exists_mem_beq, List.any_eq_true]
  exact exists_congr fun q => and_congr_right fun _ => ⟨BEq.symm, BEq.symm⟩

/-- A module with the components of its path in place of the path. -/
def Module.meaning (m : Module) : ModuleId × List Path.Component × ModuleKind :=
  (m.id, m.path.components, m.kind)

/-- A shallow map with the components of its paths in place of the paths. -/
def ShallowMap.meaning (m : ShallowMap) : List (List Path.Component × List (List Path.Component)) :=
  m.map (Prod.map Path.components Path.meanings)

namespace Graph

/-- Two graphs that differ in the spelling of their paths alone. -/
structure Alike (g h : Graph) : Prop where
  modules : g.modules.map Module.meaning = h.modules.map Module.meaning
  shallow : ShallowMap.meaning g.shallow = ShallowMap.meaning h.shallow

theorem Alike.refl (g : Graph) : g.Alike g := ⟨rfl, rfl⟩

/-- One more module with its dependencies. -/
theorem Alike.insert {g h : Graph} (a : g.Alike h) {m n : Module} (hm : m.meaning = n.meaning)
    {p q : Path} (hp : p.components = q.components) {deps deps' : List Path}
    (hdeps : Path.meanings deps = Path.meanings deps') :
    Alike ⟨g.modules ++ [m], Assoc.insert g.shallow p deps⟩
      ⟨h.modules ++ [n], Assoc.insert h.shallow q deps'⟩ := by
  have commutes : ∀ (shallow : ShallowMap) (p : Path) (deps : List Path),
      ShallowMap.meaning (Assoc.insert shallow p deps) =
        Assoc.insert (ShallowMap.meaning shallow) p.components (Path.meanings deps) :=
    Assoc.map_insert Path.meanings fun _ _ => rfl
  refine ⟨?_, ?_⟩
  · simp only [List.map_append, List.map_cons, List.map_nil, a.modules, hm]
  · rw [commutes, commutes, a.shallow, hp, hdeps]

theorem moduleAt?_meaning (g : Graph) (p : Path) :
    (g.moduleAt? p).map Module.meaning =
      (g.modules.map Module.meaning).reverse.find? (·.2.1 == p.components) := by
  rw [← List.map_reverse, List.find?_map]
  rfl

/-- The number of the module at a path does not depend on spelling. -/
theorem Alike.moduleAt?_id {g h : Graph} (a : g.Alike h) {p q : Path}
    (hpq : p.components = q.components) :
    (g.moduleAt? p).map (·.id) = (h.moduleAt? q).map (·.id) := by
  have meanings : (g.moduleAt? p).map Module.meaning = (h.moduleAt? q).map Module.meaning := by
    rw [moduleAt?_meaning, moduleAt?_meaning, a.modules, hpq]
  have ids := congrArg (Option.map (·.1)) meanings
  rwa [Option.map_map, Option.map_map] at ids

end Graph

/-! ### Inverse maps -/

namespace InverseMap

variable {idOf idOf' : Path → Option ModuleId}

theorem filterMap_of_meanings
    (same : ∀ p q : Path, p.components = q.components → idOf p = idOf' q) {ps qs : List Path}
    (h : Path.meanings ps = Path.meanings qs) : ps.filterMap idOf = qs.filterMap idOf' := by
  induction ps generalizing qs with
  | nil =>
    rw [List.map_eq_nil_iff.mp h.symm]
    rfl
  | cons p ps ih =>
    cases qs with
    | nil => cases h
    | cons q qs =>
      obtain ⟨hp, hps⟩ := List.cons.inj h
      rw [List.filterMap_cons, List.filterMap_cons, same p q hp, ih hps]

/-- The inverse of a map does not depend on spelling. -/
theorem ofShallow_of_meaning
    (same : ∀ p q : Path, p.components = q.components → idOf p = idOf' q) {m m' : ShallowMap}
    (h : ShallowMap.meaning m = ShallowMap.meaning m') : ofShallow idOf m = ofShallow idOf' m' := by
  unfold ofShallow
  generalize ([] : InverseMap) = inverse
  induction m generalizing m' inverse with
  | nil =>
    rw [List.map_eq_nil_iff.mp h.symm]
    rfl
  | cons e m ih =>
    cases m' with
    | nil => cases h
    | cons e' m' =>
      obtain ⟨he, hm⟩ := List.cons.inj h
      obtain ⟨hkey, hdeps⟩ := Prod.mk.inj he
      rw [List.foldl_cons, List.foldl_cons, same e.1 e'.1 hkey, filterMap_of_meanings same hdeps]
      exact ih hm _

end InverseMap

/-- **Graphs that are alike have the same inverse.** -/
theorem Graph.Alike.inverse {g h : Graph} (a : g.Alike h) : g.inverse = h.inverse :=
  InverseMap.ofShallow_of_meaning (fun _ _ hpq => a.moduleAt?_id hpq) a.shallow

end HotReload
