import HotReload.Disk
import HotReload.Project.Manifest

/-!
# Looking at the disk once

Locating modules looks at many paths many times. What has been seen is remembered, and what is
remembered is not looked at again, until all is forgotten: in between, the answers are those of the
first look, whatever happens to the disk.

* `Hunt α`: a computation that looks at a disk, remembers and may fail.
* `Hunt.isFile`, `Hunt.isDirectory`, `Hunt.manifest?`: the ways to look.
-/

namespace HotReload.Project

/-- Why a module cannot be located. -/
inductive LocateFault where
  /-- The module is built into the platform. -/
  | builtIn (name : String)
  /-- The specifier says nothing. -/
  | empty (specifier : String)
  | missing (specifier : String)
  /-- A package does not offer what is wanted. -/
  | notOffered (wanted : String) (package : Path)
  /-- What is offered or taken under a key leads outside of the package. -/
  | badTarget (target key : String) (manifest : Path)
  /-- What is offered is given both by names and by conditions. -/
  | mixedOffers (manifest : Path)
  /-- A folder is offered as something else than a folder. -/
  | badFolder (manifest : Path)
  /-- The package does not say what a name that starts with `#` stands for. -/
  | notTaken (specifier : String) (manifest : Path)
  /-- A name that starts with `#` is not one. -/
  | badTaken (specifier : String) (manifest : Path)
  | badManifest (manifest : Path)
  deriving Inhabited

/-- The conditions under which a package is asked for what it offers. -/
def conditions : List String := ["react-native", "browser", "import", "require", "default"]

/-- The text of a fault. -/
def LocateFault.message : LocateFault → String
  | .builtIn name => s!"Builtin module {name}"
  | .empty specifier =>
    s!"The specifiers must be a non-empty string. Received \"{specifier}\""
  | .missing specifier => "Cannot find module '" ++ specifier ++ "'"
  | .notOffered wanted package =>
    let names := ", ".intercalate (conditions.map Json.quote)
    let file := package.join ⟨Manifest.fileName⟩
    s!"\"{wanted}\" is not exported under the conditions [{names}] from package {package} " ++
      s!"(see exports field in {file})"
  | .badTarget target key manifest =>
    s!"Invalid \"exports\" target \"{target}\" defined for '" ++ key ++
      s!"' in the package config {manifest}"
  | .mixedOffers manifest =>
    s!"Invalid package config \"{manifest}\", \"exports\" cannot contain some keys " ++
      "starting with '.' and some not. The exports object must either be an object of package " ++
      "subpath keys or an object of main entry condition name keys only."
  | .badFolder manifest =>
    s!"Expecting folder to folder mapping. \"{manifest}\" should end with \"/\""
  | .notTaken specifier manifest =>
    s!"Package import specifier \"{specifier}\" is not defined in package {manifest}"
  | .badTaken specifier manifest =>
    s!"Invalid module \"{specifier}\" specifier is not a valid subpath for the \"exports\" " ++
      s!"resolution of {manifest}"
  | .badManifest manifest => s!"Invalid package config \"{manifest}\""

/-- What has been seen of a disk. -/
structure Memory where
  /-- What was at a path: a directory, a file, or nothing. -/
  entries : List (String × Option Bool) := []
  /-- The manifests of directories. -/
  manifests : List (String × Option Manifest) := []
  deriving Inhabited

/-- A computation that looks at a disk, remembers what it has seen and may fail. -/
abbrev Hunt (α : Type) := ExceptT LocateFault (ReaderT Disk (StateM Memory)) α

namespace Hunt

/-- What is at a path: a directory, a file, or nothing. -/
def look (p : Path) : Hunt (Option Bool) := do
  let memory ← get
  match memory.entries.lookup p.text with
  | some seen => pure seen
  | none =>
    let disk ← read
    let seen := (disk.stat p).toOption.map DiskEntry.isDirectory
    set { memory with entries := (p.text, seen) :: memory.entries }
    pure seen

/-- Whether there is a file at a path. -/
def isFile (p : Path) : Hunt Bool := do return (← look p) == some false

/-- Whether there is a directory at a path. -/
def isDirectory (p : Path) : Hunt Bool := do return (← look p) == some true

/-- The text of a file without the mark that may start it. -/
def unmarked (text : String) : String :=
  match text.toList with
  | '\ufeff' :: cs => String.ofList cs
  | _ => text

/-- The manifest of a directory, where it has one. One that cannot be read is a fault, and is not
remembered. -/
def manifest? (directory : Path) : Hunt (Option Manifest) := do
  let memory ← get
  match memory.manifests.lookup directory.text with
  | some seen => pure seen
  | none =>
    let file := directory.join ⟨Manifest.fileName⟩
    let disk ← read
    let seen ← match disk.read file with
      | .error _ => pure none
      | .ok content =>
        match (String.fromUTF8? content).bind fun text => Manifest.parse? (unmarked text) with
        | some manifest => pure (some manifest)
        | none => throw (.badManifest file)
    modify fun memory => { memory with manifests := (directory.text, seen) :: memory.manifests }
    pure seen

/-- The first of some directories that has a manifest, with the manifest. -/
def firstManifest? : List Path → Hunt (Option (Path × Manifest))
  | [] => pure none
  | directory :: rest => do
    match ← manifest? directory with
    | some manifest => pure (some (directory, manifest))
    | none => firstManifest? rest

/-- Drops paths up to the first directory; the outermost path stays. -/
def toDirectory : List Path → Hunt (List Path)
  | [] => pure []
  | [p] => pure [p]
  | p :: q :: rest => do if ← isDirectory p then pure (p :: q :: rest) else toDirectory (q :: rest)

/-- The closest manifest to a path, in its directory or further out. -/
def closestManifest? (p : Path) : Hunt (Option (Path × Manifest)) := do
  firstManifest? (← toDirectory p.ancestors)

end Hunt

end HotReload.Project
