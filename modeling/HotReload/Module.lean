import HotReload.Json.Typed
import HotReload.Path

/-!
# Modules and changes of files

A module is one file of a program: a number, a path and a kind. Only source modules have
dependencies of their own. A change is what happened to a file.

* `Module.toJson` and `Module.typed` write and read a module.
-/

namespace HotReload

/-- The number of a module. -/
abbrev ModuleId := UInt32

/-- What a file is to the program that imports it. -/
inductive ModuleKind where
  /-- Code, which can import other modules. -/
  | source
  /-- Data, which imports nothing. -/
  | json
  /-- A file that is served as it is. -/
  | asset
  deriving DecidableEq, Inhabited

/-- The name of a kind. -/
def ModuleKind.name : ModuleKind → String
  | .source => "source"
  | .json => "json"
  | .asset => "asset"

/-- The kind with a name. -/
def ModuleKind.named? (name : String) : Option ModuleKind :=
  [ModuleKind.source, .json, .asset].find? (·.name = name)

/-- One file of a program. -/
structure Module where
  id : ModuleId
  path : Path
  kind : ModuleKind
  deriving Inhabited

namespace Module

/-- Whether the module is code and so can import others. -/
def isSource (m : Module) : Bool := m.kind = .source

/-- Whether the module is data. -/
def isJson (m : Module) : Bool := m.kind = .json

/-- Whether the module is served as it is. -/
def isAsset (m : Module) : Bool := m.kind = .asset

/-- The module as JSON. -/
def toJson (m : Module) : Json :=
  .object [("id", .nat m.id.toNat), ("path", .string m.path.text), ("kind", .string m.kind.name)]

end Module

namespace Json.Typed

/-- A module number. -/
def moduleId : Typed ModuleId := fun cs =>
  (unsigned 32 cs).map fun (n, rest) => (n.toUInt32, rest)

/-- A module kind. -/
def moduleKind : Typed ModuleKind := variant ModuleKind.named?

/-- A path. -/
def path : Typed Path := fun cs => (text cs).map fun (s, rest) => (⟨s⟩, rest)

/-- A module. -/
def module : Typed Module :=
  record
    [field "id" moduleId fun m id => { m with id },
     field "path" path fun m path => { m with path },
     field "kind" moduleKind fun m kind => { m with kind }]
    true default

end Json.Typed

/-! ### Changes -/

/-- What happened to a file. -/
inductive ChangeKind where
  | modified
  | deleted
  deriving DecidableEq, Inhabited

/-- The name of a kind. -/
def ChangeKind.name : ChangeKind → String
  | .modified => "modified"
  | .deleted => "deleted"

/-- A file that was written or taken away. -/
structure Change where
  kind : ChangeKind
  path : Path
  deriving Inhabited

/-- Whether the file is gone. -/
def Change.isDeletion (c : Change) : Bool := c.kind = .deleted

end HotReload
