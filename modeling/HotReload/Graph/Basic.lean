import HotReload.Assoc
import HotReload.Module

/-!
# Dependency graphs

A graph holds the modules of one program in the order in which they were discovered, and for each
path the list of its direct dependencies. All else is derived from the two.

* `Graph.moduleAt?`, `moduleWith?`: the module with a path or a number; of several the last.
* `Graph.inverse`: for every module the modules that depend on it directly.
* `Graph.addedSince`: the modules whose path another graph does not have.
-/

namespace HotReload

/-- The direct dependencies of paths, in import order. -/
abbrev ShallowMap := List (Path × List Path)

/-- The numbers of the modules that depend on a module, for every module, both ascending. -/
abbrev InverseMap := List (ModuleId × List ModuleId)

/-- The dependency graph of one program. -/
structure Graph where
  /-- The modules, in the order they were discovered. -/
  modules : List Module := []
  /-- The direct dependencies of each path. -/
  shallow : ShallowMap := []
  deriving Inhabited

/-! ### Inverse maps -/

namespace InverseMap

/-- Puts a number into an ascending list. -/
def insertId (id : ModuleId) : List ModuleId → List ModuleId
  | [] => [id]
  | x :: xs => if id < x then id :: x :: xs else if id = x then x :: xs else x :: insertId id xs

/-- Makes sure of an entry for a module. -/
def addKey (id : ModuleId) : InverseMap → InverseMap
  | [] => [(id, [])]
  | (k, ids) :: m =>
    if id < k then (id, []) :: (k, ids) :: m
    else if id = k then (k, ids) :: m
    else (k, ids) :: addKey id m

/-- Records that `dependent` depends on `id`. -/
def addDependent (id dependent : ModuleId) (m : InverseMap) : InverseMap :=
  (addKey id m).map fun e => if e.1 = id then (e.1, insertId dependent e.2) else e

/-- The modules that depend on a module. -/
def dependents (m : InverseMap) (id : ModuleId) : List ModuleId := (m.lookup id).getD []

/-- The inverse of a shallow map; paths without a number are passed over, and every path with one
has an entry. -/
def ofShallow (idOf : Path → Option ModuleId) (shallow : ShallowMap) : InverseMap :=
  shallow.foldl (fun m entry =>
    match idOf entry.1 with
    | none => m
    | some dependent =>
      (entry.2.filterMap idOf).foldl (fun m id => addDependent id dependent m) (addKey dependent m))
    []

/-- The inverse map as JSON: an object with the numbers as keys. -/
def toJson (m : InverseMap) : Json :=
  .object (m.map fun e => (toString e.1, .array (e.2.map fun id => .nat id.toNat)))

end InverseMap

/-! ### Graphs -/

namespace Graph

/-- The module at a path; of several the last. -/
def moduleAt? (g : Graph) (p : Path) : Option Module := g.modules.reverse.find? (·.path == p)

/-- The module with a number; of several the last. -/
def moduleWith? (g : Graph) (id : ModuleId) : Option Module := g.modules.reverse.find? (·.id == id)

/-- Whether the graph has a module at the path. -/
def containsPath (g : Graph) (p : Path) : Bool := g.modules.any (·.path == p)

/-- The direct dependencies of a path. -/
def dependencies? (g : Graph) (p : Path) : Option (List Path) := Assoc.get? g.shallow p

/-- The inverse of the graph's dependencies. -/
def inverse (g : Graph) : InverseMap :=
  InverseMap.ofShallow (fun p => (g.moduleAt? p).map (·.id)) g.shallow

/-- The paths of the modules; of equal ones the first. -/
def knownPaths (g : Graph) : List Path :=
  g.modules.foldl (fun ps m => if ps.contains m.path then ps else ps ++ [m.path]) []

/-- The modules whose path `before` does not have, in the graph's order. -/
def addedSince (g before : Graph) : List Module :=
  g.modules.filter fun m => !before.containsPath m.path

end Graph

end HotReload
