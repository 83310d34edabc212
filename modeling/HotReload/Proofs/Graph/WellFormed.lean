import HotReload.Proofs.Graph.Coherent
import HotReload.Proofs.Graph.Rank

/-!
# Well-formed graphs

A graph is well formed where its modules stand beside their dependencies, each path once, and the
entry reaches all of them and nothing else.  Which numbers the modules have, and in which order they
stand, does not matter.

* `Graph.WellFormed.contains_iff`: a graph has the paths that the entry reaches.
* `Graph.Coherent.wellFormed`, `Search.wellFormed_of_discover`: graphs that are well formed.
-/

namespace HotReload

namespace Graph

/-- The modules stand beside their dependencies, and the entry reaches all of them. -/
structure WellFormed (entry : Path) (g : Graph) : Prop where
  /-- The modules stand beside the paths that have dependencies. -/
  keys : Path.meanings (g.modules.map (·.path)) = Path.meanings g.keys
  distinct : (Path.meanings g.keys).Nodup
  first : Assoc.contains g.shallow entry = true
  /-- What is listed as a dependency has dependencies of its own. -/
  closed : ∀ e ∈ g.shallow, ∀ d ∈ e.2, Assoc.contains g.shallow d = true
  /-- Data and assets depend on nothing. -/
  leaves : ∀ m ∈ g.modules, m.kind ≠ .source → g.dependencies? m.path = some []
  reached : ∀ e ∈ g.shallow, Reaches g.shallow entry e.1

theorem Reaches.of_steps {shallow : ShallowMap} {p q : Path}
    (h : Relation.ReflTransGen (fun q d => d ∈ children shallow q) p q) : Reaches shallow p q := by
  induction h with
  | refl => exact .here BEq.rfl
  | tail _ child ih => exact .further ih child BEq.rfl

section Reading

variable {g : Graph} {entry p q : Path}

theorem contains_congr (same : (p == q) = true) :
    Assoc.contains g.shallow p = Assoc.contains g.shallow q := by
  rw [← Assoc.get?_isSome, ← Assoc.get?_isSome, Assoc.get?_congr same]

/-- The dependencies of a path that has any are listed with it. -/
theorem exists_of_mem_children {d : Path} (child : d ∈ children g.shallow p) :
    ∃ e ∈ g.shallow, (e.1 == p) = true ∧ d ∈ e.2 := by
  cases found : Assoc.get? g.shallow p with
  | none =>
    rw [children, found] at child
    cases child
  | some deps =>
    obtain ⟨k, mem, same⟩ := Assoc.mem_of_get? found
    rw [children, found] at child
    exact ⟨(k, deps), mem, same, child⟩

namespace WellFormed

variable (h : g.WellFormed entry)

include h

theorem containsPath_eq (p : Path) : g.containsPath p = Assoc.contains g.shallow p := by
  have sides : ∀ ps : List Path, ps.any (· == p) = (Path.meanings ps).any (· == p.components) := by
    intro ps
    rw [Path.meanings, List.any_map]
    rfl
  have modules : g.containsPath p = (g.modules.map (·.path)).any (· == p) := by
    rw [List.any_map]
    rfl
  have lists : Assoc.contains g.shallow p = g.keys.any (· == p) := by
    rw [Graph.keys, List.any_map]
    rfl
  rw [modules, lists, sides, sides, h.keys]

theorem closed' {d : Path} (child : d ∈ children g.shallow p) : g.containsPath d = true := by
  obtain ⟨e, mem, -, here⟩ := exists_of_mem_children child
  rw [h.containsPath_eq, h.closed e mem d here]

/-- **A graph has the paths that the entry reaches.** -/
theorem contains_iff : g.containsPath p = true ↔ Reaches g.shallow entry p := by
  constructor
  · intro known
    rw [h.containsPath_eq] at known
    obtain ⟨e, mem, same⟩ := List.any_eq_true.mp known
    exact (h.reached e mem).same_right same
  · intro reached
    cases reached with
    | here same => rw [h.containsPath_eq, ← contains_congr same, h.first]
    | further _ child same => rw [← containsPath_congr same, h.closed' child]

theorem distinct_paths : (Path.meanings (g.modules.map (·.path))).Nodup := by
  rw [h.keys]
  exact h.distinct

/-- What there is to look up for a path of the graph. -/
theorem lookup (known : g.containsPath p = true) :
    ∃ m deps, g.moduleAt? p = some m ∧ g.dependencies? p = some deps ∧
      children g.shallow p = deps ∧ (m.kind ≠ .source → deps = []) := by
  obtain ⟨m, found⟩ := Option.isSome_iff_exists.mp ((isSome_moduleAt? g p).trans known)
  obtain ⟨mem, here⟩ := mem_of_moduleAt? found
  rw [h.containsPath_eq, ← Assoc.get?_isSome] at known
  obtain ⟨deps, listed⟩ := Option.isSome_iff_exists.mp known
  refine ⟨m, deps, found, listed, by rw [children, listed]; rfl, fun kind => ?_⟩
  have none := h.leaves m mem kind
  rw [dependencies?, Assoc.get?_congr here, listed] at none
  exact Option.some.inj none

end WellFormed

/-- A coherent graph is well formed. -/
theorem Coherent.wellFormed (h : g.Coherent entry) : g.WellFormed entry where
  keys := h.keys
  distinct := h.keys ▸ h.distinct
  first := by
    obtain ⟨m, rest, modules, here⟩ := h.first
    have keys := h.keys
    cases listed : g.shallow with
    | nil =>
      rw [modules, Graph.keys, listed] at keys
      cases keys
    | cons e shallow =>
      rw [modules, Graph.keys, listed] at keys
      have same : e.1.components = m.path.components := (List.cons.inj keys).1.symm
      have found : (e.1 == entry) = true := BEq.trans (Path.beq_iff.mpr same) here
      rw [Assoc.contains, List.any_cons, found, Bool.true_or]
  closed := h.closed
  leaves := h.leaves
  reached e mem := by
    have distinct : (Path.meanings g.keys).Nodup := h.keys ▸ h.distinct
    have listed : e.1.components ∈ Path.meanings (g.modules.map (·.path)) := by
      rw [h.keys]
      exact List.mem_map_of_mem (List.mem_map_of_mem mem)
    obtain ⟨q, here, same⟩ := List.mem_map.mp listed
    obtain ⟨m, there, rfl⟩ := List.mem_map.mp here
    obtain ⟨p, path, steps⟩ := h.reached m there
    exact (Reaches.of_steps steps).same_right (BEq.trans path (Path.beq_iff.mpr same))

end Reading

end Graph

/-- **What a discovery finds is well formed**, as long as the files stay as they are. -/
theorem Search.wellFormed_of_discover {σ : Type} {r : Resolver σ} {st : σ} {v : Snapshot}
    {platform : String} {entry : Path} {g : Graph} (shows_ : r.ShowsFrom st v)
    (found : (discover r platform entry st).1 = .ok g) : g.WellFormed entry := by
  have tidy := tidy_start platform entry
  have gathers := (answered_of_discover found).gathers
  have paired := gathers.paired tidy .nil
  have distinct := gathers.distinct tidy
  have layers := gathers.layers
  have named : ∀ {p : Path} {m : Module},
      .module p (.ok m) ∈ (start platform entry).hears r (r.bound st) st → (m.path == p) = true :=
    fun mem => v.path_of_module (agrees_hears shows_ _ _ _ mem _ rfl)
  have first : entry ∈ g.keys := layers.first_layer.subset List.mem_cons_self
  refine ⟨paired.keys_of_named named, distinct, ?_, closed_of_layers distinct layers,
    fun m mem kind => ?_, fun e mem => ?_⟩
  · obtain ⟨e, mem, rfl⟩ := List.mem_map.mp first
    exact List.any_eq_true.mpr ⟨e, mem, BEq.rfl⟩
  · obtain ⟨e, here, told⟩ := paired.exists_entry mem
    have none : e.2 = [] := told.leaf (by simpa [Module.isSource] using kind)
    rw [Graph.dependencies?_of_mem distinct here (BEq.symm (named told.module)), none]
  · have start : ∀ p ∈ [entry], Relation.ReflTransGen
        (fun q d => d ∈ Graph.children g.shallow q) entry p := fun p mem => by
      rw [List.mem_singleton.mp mem]
    exact .of_steps (layers.reached start e.1 (List.mem_map_of_mem mem))

end HotReload
