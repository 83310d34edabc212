import HotReload.Project.Offers

/-!
# Locating modules

A specifier that starts with `.` or `/` is a path; any other names a package, which is looked for in
the directories `node_modules` next to the file and further out. A path stands for the file there,
for the file there with one of the extensions, or for a directory, whose manifest may name a main
file and which otherwise has an index.

* `locate`: the file that a specifier stands for in a directory.
-/

namespace HotReload.Project

/-- The first of some hunts that finds something. -/
def firstFound {α β : Type} (hunt : α → Hunt (Option β)) : List α → Hunt (Option β)
  | [] => pure none
  | x :: xs => do
    match ← hunt x with
    | some found => pure (some found)
    | none => firstFound hunt xs

/-! ### Files and directories -/

/-- The file at a path. -/
def fileAt (p : Path) : Hunt (Option Path) := do return if ← Hunt.isFile p then some p else none

/-- The file at a path with the first extension with which there is one. -/
def extendedFile (extensions : List String) (p : Path) : Hunt (Option Path) :=
  firstFound (fun extension => fileAt ⟨p.text ++ extension⟩) extensions

/-- The file that a path stands for. Where an extension may be empty, the path counts only as
that. -/
def asFile (extensions : List String) (p : Path) : Hunt (Option Path) := do
  if !extensions.contains "" then
    if let some found ← fileAt p then return some found
  extendedFile extensions p

/-- The index of a directory. -/
def indexOf (extensions : List String) (directory : Path) : Hunt (Option Path) :=
  asFile extensions (directory.walk ⟨"index"⟩)

/-- The file that a directory stands for: its main file, or the index of its main directory, or its
index. -/
def asDirectory (extensions : List String) (directory : Path) : Hunt (Option Path) := do
  if let some manifest ← Hunt.manifest? directory then
    if let some main := manifest.main then
      let cs := main.toList
      let main :=
        if "./".toList.isPrefixOf cs || "../".toList.isPrefixOf cs then main else "./" ++ main
      let p := directory.walk ⟨main⟩
      if let some found ← asFile extensions p then return some found
      if let some found ← indexOf extensions p then return some found
  indexOf extensions directory

/-- What a path stands for. One that is written with a `/` at its end is only looked at as a
directory. -/
def asFileOrDirectory (extensions : List String) (p : Path) (written : String) :
    Hunt (Option Path) := do
  if written.toList.getLast? ≠ some '/' then
    if let some found ← asFile extensions p then return some found
  if ← Hunt.isDirectory p then asDirectory extensions p else pure none

/-! ### Packages -/

/-- The modules that are built into the platform. -/
def builtIns : List String :=
  ["_http_agent", "_http_client", "_http_common", "_http_incoming", "_http_outgoing",
   "_http_server", "_stream_duplex", "_stream_passthrough", "_stream_readable",
   "_stream_transform", "_stream_wrap", "_stream_writable", "_tls_common", "_tls_wrap", "assert",
   "assert/strict", "async_hooks", "buffer", "child_process", "cluster", "console", "constants",
   "crypto", "dgram", "diagnostics_channel", "dns", "dns/promises", "domain", "events", "fs",
   "fs/promises", "http", "http2", "https", "inspector", "inspector/promises", "module", "net",
   "os", "path", "path/posix", "path/win32", "perf_hooks", "process", "punycode", "querystring",
   "readline", "readline/promises", "repl", "stream", "stream/consumers", "stream/promises",
   "stream/web", "string_decoder", "sys", "timers", "timers/promises", "tls", "trace_events",
   "tty", "url", "util", "util/types", "v8", "vm", "wasi", "worker_threads", "zlib"]

/-- Stops at a module that is built into the platform. -/
def refuseBuiltIn (path : String) : Hunt Unit :=
  if "node:".toList.isPrefixOf path.toList then throw (.builtIn path)
  else if builtIns.contains path then throw (.builtIn ("node:" ++ path))
  else pure ()

/-- What is left of a text before each `?`, from the last one to the first. -/
def beforeQueries (text : String) : List String :=
  let pieces := Text.split '?' text
  ((List.range pieces.length).drop 1).reverse.map fun n => Text.splice '?' (pieces.take n)

/-- The file that an offered path stands for; a query at its end may be left out. -/
def asOffered (extensions : List String) (specifier : String) (p : Path) : Hunt Path := do
  match ← asFileOrDirectory extensions p "" with
  | some found => pure found
  | none =>
    let short := beforeQueries p.text
    match ← firstFound (fun text => asFileOrDirectory extensions ⟨text⟩ "") short with
    | some found => pure found
    | none => throw (.missing specifier)

/-- The directories `node_modules` that a file sees, from the closest one outwards. -/
def packageDirectories (directory : Path) : List Path :=
  directory.ancestors.map (·.join ⟨"node_modules"⟩)

/-- What a package in a directory of packages stands for. -/
def inPackages (extensions : List String) (path tail : String) (packages : Path) :
    Hunt (Option Path) := do
  let (name, inner) := Specifier.packageParts path
  if !(← Hunt.isDirectory packages) then return none
  let package := packages.walk ⟨name⟩
  if ← Hunt.isDirectory package then
    if let some manifest ← Hunt.manifest? package then
      if let some offers := manifest.offers then
        let found ← Offers.offered package offers ("." ++ inner) tail
        return some (← asOffered extensions path found)
  else
    if inner ≠ "" then return none
    if name.toList.head? = some '@' then
      if let some scope := package.parent? then
        if !(← Hunt.isDirectory scope) then return none
  asFileOrDirectory extensions (packages.walk ⟨path⟩) path

/-- What a package stands for that has the name of the package around it. -/
def inOwnPackage (extensions : List String) (directory : Path) (path tail : String) :
    Hunt (Option Path) := do
  let some (package, manifest) ← Hunt.closestManifest? directory | return none
  let (some name, some offers) := (manifest.name, manifest.offers) | return none
  if !name.toList.isPrefixOf path.toList then return none
  let inner := String.ofList (path.toList.drop name.length)
  if inner ≠ "" && inner.toList.head? ≠ some '/' then return none
  let found ← Offers.offered package offers ("." ++ inner) tail
  return some (← asOffered extensions path found)

/-- The file that a package, or a path inside of one, stands for. -/
def asPackage (extensions : List String) (directory : Path) (path tail : String) : Hunt Path := do
  if let some found ← inOwnPackage extensions directory path tail then return found
  let found ← firstFound (fun base => do
    if ← Hunt.isDirectory base then
      inPackages extensions path tail (base.join ⟨"node_modules"⟩)
    else pure none) directory.ancestors
  match found with
  | some found => pure found
  | none => throw (.missing path)

/-! ### Paths -/

/-- The file that a relative path stands for. -/
def asRelative (extensions : List String) (directory : Path) (path : String) : Hunt Path := do
  let written := if path = "." then "./" else path
  match ← asFileOrDirectory extensions (directory.walk ⟨path⟩) written with
  | some found => pure found
  | none => throw (.missing path)

/-- The file that an absolute path stands for. -/
def asAbsolute (extensions : List String) (path : String) : Hunt Path := do
  match ← asFileOrDirectory extensions ⟨path⟩ path with
  | some found => pure found
  | none => throw (.missing path)

/-! ### Names that start with `#` -/

/-- Where the way to another package leads that a name stands for inside a package. -/
def otherPackage (extensions : List String) (package : Path) (path : String) :
    Hunt (Option Path) := do
  let (name, inner) := Specifier.packageParts path
  refuseBuiltIn name
  let found ← firstFound (fun packages => do
    if !(← Hunt.isDirectory packages) then return none
    let other := packages.walk ⟨name⟩
    if !(← Hunt.isDirectory other) then return none
    if let some manifest ← Hunt.manifest? other then
      if let some offers := manifest.offers then
        return some (← Offers.offered other offers ("." ++ inner) "")
    return some (← asRelative extensions other ("." ++ inner))) (packageDirectories package)
  match found with
  | some found => pure (some found)
  | none => throw (.missing path)

/-- What a name that starts with `#` stands for in the package around a directory, where that says
so of any. -/
def asTaken (extensions : List String) (directory : Path) (path : String) : Hunt (Option Path) := do
  let some (package, manifest) ← Hunt.closestManifest? directory | return none
  let some table := manifest.takes | return none
  let file := package.join ⟨Manifest.fileName⟩
  if path = "#" || "#/".toList.isPrefixOf path.toList then throw (.badTaken path file)
  let outside := fun target =>
    if "../".toList.isPrefixOf target.toList || target.toList.head? = some '/' then
      throw (.badTarget target path file)
    else otherPackage extensions package target
  match ← Offers.named package outside table path with
  | some found => return some (← asOffered extensions path found)
  | none => throw (.notTaken path file)

/-! ### Specifiers -/

/-- The file that the path of a specifier stands for in a directory. -/
def asPath (extensions : List String) (directory : Path) (path tail : String) : Hunt Path := do
  match (Path.mk path).components.head? with
  | some .root => asAbsolute extensions path
  | some .current | some .parent => asRelative extensions directory path
  | _ =>
    if path.toList.head? = some '#' then
      match ← asTaken extensions directory path with
      | some found => pure found
      | none => asPackage extensions directory path tail
    else
      refuseBuiltIn path
      asPackage extensions directory path tail

/-- The file that a specifier stands for in a directory. A fragment may also be part of a file's
name, which is tried first. -/
def asSpecifier (extensions : List String) (directory : Path) (specifier : String) : Hunt Path := do
  let some parsed := Specifier.parse? specifier | throw (.empty specifier)
  if let (none, some fragment) := (parsed.query, parsed.fragment) then
    let whole := parsed.path ++ fragment
    let found ← try some <$> asPath extensions directory whole "" catch _ => pure none
    if let some found := found then return found
  asPath extensions directory parsed.path (parsed.query.getD "" ++ parsed.fragment.getD "")

/-- Looks at the manifests of the package around a file. -/
def checkPackage (file : Path) : Hunt Unit := do
  let isPackages := fun p : Path => p.fileName? = some "node_modules"
  if file.ancestors.any isPackages then
    for p in file.ancestors.takeWhile (!isPackages ·) do
      if ← Hunt.isDirectory p then
        let _ ← Hunt.manifest? p
  else
    let _ ← Hunt.closestManifest? file

/-- The file that a specifier stands for in a directory, by its clean path. -/
def locate (extensions : List String) (directory : Path) (specifier : String) : Hunt Path := do
  let found ← asSpecifier extensions directory specifier
  checkPackage found
  pure found.clean

end HotReload.Project
