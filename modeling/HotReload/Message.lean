import HotReload.Resolver.Basic

/-!
# Messages to a client

A client is sent four kinds of message, each one JSON object with its kind under `type`. An update
carries code, an inverse map that describes the program after the change, and the numbers of deleted
modules; a report carries what a client may know of a fault.

* `Message.toJson`, `Message.wire`: the text that is sent.
* `Report.ofFault`: what is told of a fault. Nothing of an internal fault is told but that it arose.
-/

namespace HotReload

/-- A module's code under its number. -/
structure CodeUnit where
  id : ModuleId
  code : String
  deriving DecidableEq, Inhabited

/-- The code as JSON. -/
def CodeUnit.toJson (u : CodeUnit) : Json :=
  .object [("id", .nat u.id.toNat), ("code", .string u.code)]

/-- What an update carries. -/
structure Payload where
  modules : List CodeUnit
  inverse : InverseMap
  sourceUrls : List String
  mapUrls : List String
  /-- The modules that the client is to drop. -/
  deleted : List ModuleId := []
  deriving DecidableEq, Inhabited

namespace Payload

/-- The update that delivers a build. -/
def ofBuild (built : List BuiltModule) (inverse : InverseMap) : Payload :=
  { modules := built.map fun m => ⟨m.id, m.code⟩
    inverse
    sourceUrls := built.map (·.sourceUrl)
    mapUrls := built.map (·.mapUrl) }

/-- The update that makes a client drop one module. -/
def deletion (id : ModuleId) (inverse : InverseMap) : Payload :=
  { modules := [], inverse, sourceUrls := [], mapUrls := [], deleted := [id] }

/-- The payload as JSON; the deleted modules are left out where there are none. -/
def toJson (p : Payload) : Json :=
  .object <|
    [("modules", .array (p.modules.map CodeUnit.toJson)),
     ("inverseDependencies", InverseMap.toJson p.inverse),
     ("sourceURLs", .strings p.sourceUrls),
     ("sourceMappingURLs", .strings p.mapUrls)] ++
    (if p.deleted.isEmpty then []
     else [("deletedModules", .array (p.deleted.map fun id => .nat id.toNat))])

end Payload

/-! ### Reports -/

/-- The class of a fault that a client is told of. -/
inductive ReportKind where
  | transform
  | notFound
  | unresolved
  | internal
  deriving DecidableEq, Inhabited

/-- The name of a class. -/
def ReportKind.name : ReportKind → String
  | .transform => "TransformError"
  | .notFound => "NotFoundError"
  | .unresolved => "UnableToResolveError"
  | .internal => "InternalError"

/-- The class with a name. -/
def ReportKind.named? (name : String) : Option ReportKind :=
  [ReportKind.transform, .notFound, .unresolved, .internal].find? (·.name = name)

/-- What a client is told of a fault. -/
structure Report where
  kind : ReportKind
  description : String
  file : Option String := none
  line : Option UInt32 := none
  deriving DecidableEq, Inhabited

namespace Report

/-- What stands in for the text of an internal fault. -/
def internalDescription : String :=
  "Unexpected server error while building the update; see the server log for details."

/-- What is told of a fault. -/
def ofFault (fault : UpdateFault) : Report :=
  match fault with
  | .missing path => ⟨.notFound, fault.message, some path.text, none⟩
  | .entryLost entry => ⟨.notFound, fault.message, some entry.text, none⟩
  | .unresolved _ from_ _ => ⟨.unresolved, fault.message, some from_.text, none⟩
  | .transform file message line => ⟨.transform, message, some file.text, line⟩
  | .internal _ => ⟨.internal, internalDescription, none, none⟩

/-- The report as JSON; file and line are left out where they are not known. -/
def toJson (r : Report) : Json :=
  .object <|
    [("type", .string r.kind.name), ("description", .string r.description)] ++
    (r.file.map fun file => ("filename", Json.string file)).toList ++
    (r.line.map fun line => ("lineNumber", Json.nat line.toNat)).toList

end Report

/-! ### Messages -/

/-- A message to a client. -/
inductive Message where
  | updateStart
  | update (payload : Payload)
  | updateDone
  | error (report : Report)
  deriving DecidableEq, Inhabited

namespace Message

/-- The name of a message's kind. -/
def kind : Message → String
  | .updateStart => "update-start"
  | .update _ => "update"
  | .updateDone => "update-done"
  | .error _ => "error"

/-- The message as JSON. -/
def toJson (m : Message) : Json :=
  match m with
  | .updateStart | .updateDone => .object [("type", .string m.kind)]
  | .update payload => .object [("type", .string m.kind), ("body", payload.toJson)]
  | .error report => .object [("type", .string m.kind), ("body", report.toJson)]

/-- The text that is sent. -/
def wire (m : Message) : String := m.toJson.render

end Message

namespace Json.Typed

/-- A module's code under its number. -/
def codeUnit : Typed CodeUnit :=
  record
    [field "id" moduleId fun u id => { u with id },
     field "code" text fun u code => { u with code }]
    true default

/-- The class of a fault. -/
def reportKind : Typed ReportKind := variant ReportKind.named?

end Json.Typed

end HotReload
