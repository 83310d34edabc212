import HotReload.Proofs.Graph.Coherent
import HotReload.Proofs.Graph.Visits

/-!
# What a graph charts

A graph charts a layout where its modules are exactly what the entry leads to, each once and breadth
first, and stand beside what the layout says that they import.

* `Graph.Charts`: a graph charts a layout.
* `Search.run_charted`: so does what is discovered while the files stay as they are.
-/

namespace HotReload

/-- A graph charts what a layout says on a platform of what an entry leads to. -/
structure Graph.Charts (l : Layout) (platform : String) (entry : Path) (g : Graph) : Prop where
  /-- The modules are what the entry leads to. -/
  containsPath_iff : ∀ p, g.containsPath p = true ↔ ∃ n, Away (l.imports platform entry) entry n p
  /-- No module comes twice. -/
  distinct : (Path.meanings (g.modules.map (·.path))).Nodup
  /-- Each module stands beside the list that the layout has for it. -/
  beside : List.Forall₂ (fun e m => l.Seen platform entry e.1 m e.2) g.shallow g.modules
  /-- This list is the one that is found at its path. -/
  listed : ∀ m ∈ g.modules, ∃ p deps, l.Seen platform entry p m deps ∧
    g.dependencies? m.path = some deps
  /-- The order is breadth-first. -/
  ordered : BreadthFirst (l.imports platform entry) entry g.keys

theorem Graph.containsPath_eq (g : Graph) (p : Path) :
    g.containsPath p = (g.modules.map (·.path)).contains p := by
  rw [containsPath, Bool.eq_iff_iff, List.any_eq_true, List.contains_iff_exists_mem_beq]
  constructor
  · rintro ⟨m, mem, same⟩
    exact ⟨m.path, List.mem_map_of_mem mem, BEq.symm same⟩
  · rintro ⟨q, mem, same⟩
    obtain ⟨m, here, rfl⟩ := List.mem_map.mp mem
    exact ⟨m, here, BEq.symm same⟩

/-- A graph whose paths are in breadth-first order, beside what the layout says, charts it. -/
theorem Graph.Charts.of_beside {l : Layout} {platform : String} {entry : Path} {g : Graph}
    (beside : List.Forall₂ (fun e m => l.Seen platform entry e.1 m e.2) g.shallow g.modules)
    (ordered : BreadthFirst (l.imports platform entry) entry g.keys) :
    g.Charts l platform entry := by
  have keys := keys_of_forall₂ (beside.imp fun _ _ seen => seen.path)
  refine ⟨fun p => ?_, keys ▸ ordered.distinct, beside, fun m mem => ?_, ordered⟩
  · rw [containsPath_eq, Path.contains_iff_meanings, keys, ← Path.contains_iff_meanings]
    exact ordered.contains_iff p
  · obtain ⟨e, here, seen⟩ := Search.exists_of_forall₂ beside mem
    exact ⟨e.1, e.2, seen, dependencies?_of_mem ordered.distinct here (BEq.symm seen.path)⟩

/-- **What is discovered** while the files stay as they are is a chart of them: the modules are
exactly what the entry leads to, each once, beside the unchanged list of what it imports, and in
breadth-first order.  The fuel does not matter. -/
theorem Search.run_charted {σ : Type} {r : Resolver σ} {st : σ} {l : Layout}
    (h : r.DepictsFrom st l) {platform : String} {entry : Path} {fuel : Nat} {g : Graph}
    (found : ((start platform entry).run r fuel st).1 = some (.ok g)) :
    g.Charts l platform entry := by
  obtain ⟨order, visits, -⟩ := (answered_of_run found).visits
    (fits_hears h fuel (start platform entry)) rfl rfl rfl
  obtain ⟨takes, outcome⟩ := (queued_start _ platform entry).visits visits
  cases outcome with
  | found keys ends beside =>
    have keys : g.keys = order := keys
    have takes : Takes (l.imports platform entry) entry order := takes
    rw [← keys] at takes
    exact .of_beside (beside .nil) (takes.breadthFirst ends Layout.spelled_imports)

namespace Sample

/-- A program with a cycle, two ways to one file, a file that imports itself, files that are
imported twice, and paths in several spellings.  What a data file lists is not looked at. -/
def maze : Tree :=
  let t := (({} : Tree).add ⟨"/m"⟩ .source [⟨"/b"⟩, ⟨"//a"⟩, ⟨"/b/"⟩] "").add
    ⟨"/a"⟩ .source [⟨"/d"⟩, ⟨"/./m"⟩, ⟨"/a"⟩] ""
  (t.add ⟨"/b"⟩ .source [⟨"/c/"⟩, ⟨"/d"⟩] "").add ⟨"/c"⟩ .json [⟨"/x"⟩] "" |>.add ⟨"/d"⟩ .asset [] ""

/-- The program is charted from `/m` on. -/
theorem maze_charted : ∃ g, (Search.discover Tree.resolver "ios" ⟨"/m"⟩ maze).1 = .ok g ∧
    g.keys.map Path.text = ["/m", "/b", "//a", "/c/", "/d"] ∧
    g.Charts maze.snapshot.layout "ios" ⟨"/m"⟩ := by
  have order : (Search.discover Tree.resolver "ios" ⟨"/m"⟩ maze).1.toOption.map
      (fun g => g.keys.map Path.text) = some ["/m", "/b", "//a", "/c/", "/d"] := by
    decide +kernel
  cases found : (Search.discover Tree.resolver "ios" ⟨"/m"⟩ maze).1 with
  | error e =>
    rw [found] at order
    cases order
  | ok g =>
    rw [found] at order
    exact ⟨g, rfl, Option.some.inj order,
      Search.run_charted maze.showsFrom.depicts (Search.run_of_discover found)⟩

end Sample

end HotReload
