import HotReload.Project.Locate
import HotReload.Resolver.Basic
import HotReload.Script.Program
import HotReload.Script.Splice

/-!
# A project on disk as a resolver

A project numbers its files as it meets them, reads dependencies off source texts, and builds a
module as a definition under its number, in which every `require` of a file names the file's number.

* `Project.kindOf`: what a file is, by its extension.
* `Project.dependencies`: the files that a source imports, in the order of their first import.
* `Project.build`: modules as definitions.
* `Project.resolver`: the project as a resolver.
-/

namespace HotReload

/-- A project on disk. -/
structure Project where
  root : Path
  /-- The extensions that are tried on a path without one. -/
  extensions : List String
  disk : Disk := {}
  /-- The numbers given so far, in ascending order. -/
  ids : List (Path × ModuleId) := []
  /-- What has been seen of the disk since it was last forgotten. -/
  memory : Project.Memory := {}
  deriving Inhabited

namespace Project

/-! ### Kinds of files -/

/-- The extensions of files that are served as they are, in lower case. -/
def assetExtensions : List String :=
  ["png", "jpg", "jpeg", "gif", "webp", "bmp", "svg", "ttf", "otf", "woff", "woff2", "mp3", "mp4",
   "wav", "webm"]

/-- The kind of a file. Only `json` in lower case is data; the case of other extensions is
ignored. -/
def kindOf (p : Path) : ModuleKind :=
  match p.extension? with
  | none => .source
  | some extension =>
    if extension = "json" then .json
    else if assetExtensions.contains (Text.asciiLower extension) then .asset
    else .source

/-! ### Numbers -/

/-- The number of a path; a path without one is given the next. -/
def idOf (p : Project) (path : Path) : ModuleId × Project :=
  match Assoc.get? p.ids path with
  | some id => (id, p)
  | none =>
    let id := p.ids.length.toUInt32
    (id, { p with ids := p.ids ++ [(path, id)] })

/-- The module of a file. -/
def moduleOf (path : Path) (p : Project) : Except ResolveFault Module × Project :=
  if p.disk.isFile path then
    let (id, p) := p.idOf path
    (.ok ⟨id, path, kindOf path⟩, p)
  else (.error (.missing path), p)

/-! ### Sources -/

/-- The text of a file. -/
def readText (p : Project) (path : Path) : Except ResolveFault String :=
  match p.disk.read path with
  | .error .missing => .error (.missing path)
  | .error fault => .error (.other s!"Failed to read {path}: {fault.message}")
  | .ok content =>
    match String.fromUTF8? content with
    | some text => .ok text
    | none => .error (.other s!"Failed to read {path}: stream did not contain valid UTF-8")

/-- The imports of a source text. `Syntax error` stands in for the words in which a parser tells of the
first fault; the line is that of the fault. -/
def scan (path : Path) (source : String) : Except ResolveFault Script.Imports :=
  match Script.scan (Script.Dialect.ofPath path) source with
  | .ok imports => .ok imports
  | .error line => .error (.transform path "Syntax error" (some line.toUInt32))

/-- The file that a specifier stands for in a source file; none for a module that is built into the
platform. -/
def resolve (p : Project) (specifier : String) (source : Path) :
    Except ResolveFault (Option Path) × Project :=
  let directory := source.parent?.getD p.root
  let (answer, memory) :=
    ((locate p.extensions directory specifier).run.run p.disk).run p.memory
  let p := { p with memory }
  match answer with
  | .ok file => (.ok (some file), p)
  | .error (.builtIn _) => (.ok none, p)
  | .error fault => (.error (.unresolved specifier source fault.message), p)

/-- Locates specifiers one after the other, adding the files that were not there yet. -/
def locateAll (source : Path) (files : List Path) (p : Project) :
    List String → Except ResolveFault (List Path) × Project
  | [] => (.ok files, p)
  | specifier :: rest =>
    match p.resolve specifier source with
    | (.error fault, p) => (.error fault, p)
    | (.ok none, p) => locateAll source files p rest
    | (.ok (some file), p) =>
      locateAll source (if files.contains file then files else files ++ [file]) p rest

/-- The direct dependencies of a file, each once, by their first import. What was seen of the disk
is forgotten first. -/
def dependencies (lookup : Lookup) (p : Project) : Except ResolveFault (List Path) × Project :=
  let path := lookup.file
  if kindOf path ≠ .source then (.ok [], p)
  else
    match (p.readText path).bind (scan path) with
    | .error fault => (.error fault, p)
    | .ok imports => locateAll path [] { p with memory := {} } imports.specifiers

/-! ### Building -/

/-- The address of a file, or of its source map. -/
def urlOf (p : Project) (job : BuildJob) (path : Path) (map : Bool) : String :=
  let below := (path.below? p.root).getD path
  let text := String.ofList (below.text.toList.map fun c => if c = '\\' then '/' else c)
  let text := Text.trimStartBy (· = '/') (if map then text ++ ".map" else text)
  s!"http://{job.host}:{job.port}/{text}?platform={job.platform}&dev=true&hot=true"

/-- The patches that put numbers in for what is required. A number that the program does not have is
the project's own. -/
def requirePatches (source : Path) (resolution : Resolution) (p : Project) :
    Script.Imports → Except ResolveFault (List Script.Patch) × Project
  | [] => (.ok [], p)
  | record :: rest =>
    match p.resolve record.specifier source with
    | (.error fault, p) => (.error fault, p)
    | (.ok none, p) => requirePatches source resolution p rest
    | (.ok (some file), p) =>
      let (id, p) := match resolution.idFor? file with
        | some id => (id, p)
        | none => p.idOf file
      match requirePatches source resolution p rest with
      | (.error fault, p) => (.error fault, p)
      | (.ok patches, p) => (.ok (⟨record.start, record.stop, toString id⟩ :: patches), p)

/-- A source text with numbers in place of what it requires. -/
def numberRequires (path : Path) (source : String) (imports : Script.Imports)
    (resolution : Resolution) (p : Project) : Except ResolveFault String × Project :=
  let (patches, p) := requirePatches path resolution p imports.requires
  (patches.map (Script.splice source), p)

/-- The body of a module as code. -/
def bodyOf (job : BuildJob) (m : Module) (p : Project) : Except ResolveFault String × Project :=
  match m.kind with
  | .asset =>
    let fields :=
      [("__packager_asset", Json.bool true), ("uri", Json.string (p.urlOf job m.path false))]
    (.ok s!"module.exports = {(Json.object fields).render};", p)
  | .json =>
    match p.readText m.path with
    | .error fault => (.error fault, p)
    | .ok text =>
      match Json.parse text with
      | .error line => (.error (.transform m.path "Malformed JSON" (some line.toUInt32)), p)
      | .ok value => (.ok s!"module.exports = {value.normal.render};", p)
  | .source =>
    match p.readText m.path with
    | .error fault => (.error fault, p)
    | .ok text =>
      match scan m.path text with
      | .error fault => (.error fault, p)
      | .ok imports => numberRequires m.path text imports job.resolution p

/-- Builds modules one after the other. -/
def build (job : BuildJob) (p : Project) :
    List Module → Except ResolveFault (List BuiltModule) × Project
  | [] => (.ok [], p)
  | m :: rest =>
    match bodyOf job m p with
    | (.error fault, p) => (.error fault, p)
    | (.ok body, p) =>
      match build job p rest with
      | (.error fault, p) => (.error fault, p)
      | (.ok built, p) =>
        let url := p.urlOf job m.path
        (.ok (⟨m.id, define body m.id, url false, url true⟩ :: built), p)

/-- A bound on the questions of a discovery: no file is looked at twice, and a path without a file
ends it. -/
def bound (p : Project) : Nat := 2 * p.disk.entries.length + 2

/-- The project as a resolver. -/
def resolver : Resolver Project where
  module := moduleOf
  dependencies := dependencies
  order _ p := p
  deliver job p :=
    let (answer, p) := build job p job.modules
    (some answer, p)
  bound := bound

end Project

end HotReload
