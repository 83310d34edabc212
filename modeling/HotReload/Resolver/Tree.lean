import HotReload.Resolver.Basic

/-!
# A resolver over a tree in memory

A tree is a table of files with their dependencies and code, changed by hand. It gives numbers in
the order in which files are added, and never gives one twice.

Faults can be planted in it, builds can be held back or made to come out empty, and it records what
it was asked.

* `Tree.add`, `remove`, `setDependencies`, `setCode`: changes of files.
* `Tree.fail`, `Tree.failAt`: faults that lookups and builds run into.
* `Tree.resolver`: the tree as a resolver.
-/

namespace HotReload

/-- A file of a tree. -/
structure TreeFile where
  id : ModuleId
  kind : ModuleKind
  dependencies : List Path
  code : String
  deriving Inhabited

/-- A kind of question to a resolver. -/
inductive Stage where
  | dependencies
  | module
  | build
  deriving DecidableEq, Inhabited

/-- What a resolver was asked. -/
inductive Call where
  | module (path : Path)
  | dependencies (lookup : Lookup)
  | build (job : BuildJob)
  deriving Inhabited

/-- The numbers of modules, with commas between them. -/
def Call.idText (modules : List Module) : String :=
  ", ".intercalate (modules.map fun m => toString m.id)

/-- A line that tells of a call. Clients are built for with reloading on and nothing shortened. -/
def Call.text : Call → String
  | .module path => s!"module {path}"
  | .dependencies q => s!"shallow {q.platform} {q.file} root={q.entry} hot=true minify=false"
  | .build job =>
    let edges := (job.resolution.dependencies.flatMap (·.2)).length
    s!"build {job.platform} {job.entry} root={job.entry} hot=true minify=false " ++
      s!"{job.host}:{job.port} modules=[{idText job.modules}] " ++
      s!"known=[{idText job.resolution.modules}] deps={edges}"

/-- A tree of files in memory. -/
structure Tree where
  files : List (Path × TreeFile) := []
  nextId : ModuleId := 0
  /-- The faults of files, which both lookups of dependencies and builds run into. -/
  faults : List (Path × ResolveFault) := []
  /-- The faults of single kinds of question, which come before all else. -/
  stageFaults : List ((Stage × Path) × ResolveFault) := []
  /-- Dependencies that hold on one platform instead of the file's own. -/
  platformDependencies : List ((String × Path) × List Path) := []
  /-- Whether builds come out empty. -/
  buildsEmpty : Bool := false
  /-- Whether builds are held back. -/
  isHeld : Bool := false
  /-- How often the dependencies of each path were looked up in the table. -/
  lookups : List (Path × Nat) := []
  /-- How many builds were made from the table. -/
  builds : Nat := 0
  /-- What the tree was asked, in order. -/
  calls : List Call := []
  deriving Inhabited

namespace Tree

/-! ### Changing a tree -/

/-- Adds a file, or replaces one under its number. -/
def add (t : Tree) (path : Path) (kind : ModuleKind) (dependencies : List Path) (code : String) :
    Tree :=
  match Assoc.get? t.files path with
  | some old =>
    { t with files := Assoc.insert t.files path ⟨old.id, kind, dependencies, code⟩ }
  | none =>
    { t with
      files := Assoc.insert t.files path ⟨t.nextId, kind, dependencies, code⟩
      nextId := t.nextId + 1 }

/-- The code of a source file that is given none. -/
def defaultCode (path : Path) : String := s!"// {path}"

/-- Takes a file away. -/
def remove (t : Tree) (path : Path) : Tree := { t with files := Assoc.erase t.files path }

/-- Gives a file other dependencies. -/
def setDependencies (t : Tree) (path : Path) (dependencies : List Path) : Tree :=
  { t with files := Assoc.modify t.files path fun file => { file with dependencies } }

/-- Gives a file other code. -/
def setCode (t : Tree) (path : Path) (code : String) : Tree :=
  { t with files := Assoc.modify t.files path fun file => { file with code } }

/-- Plants a fault in a file. -/
def fail (t : Tree) (path : Path) (fault : ResolveFault) : Tree :=
  { t with faults := Assoc.insert t.faults path fault }

/-- Takes the fault of a file away. -/
def clearFault (t : Tree) (path : Path) : Tree := { t with faults := Assoc.erase t.faults path }

/-- Plants a fault that one kind of question runs into. -/
def failAt (t : Tree) (stage : Stage) (path : Path) (fault : ResolveFault) : Tree :=
  { t with stageFaults := Assoc.insert t.stageFaults (stage, path) fault }

/-- Takes the fault of one kind of question away. -/
def clearFaultAt (t : Tree) (stage : Stage) (path : Path) : Tree :=
  { t with stageFaults := Assoc.erase t.stageFaults (stage, path) }

/-- Gives a file other dependencies on one platform. -/
def setPlatformDependencies (t : Tree) (platform : String) (path : Path)
    (dependencies : List Path) : Tree :=
  { t with
    platformDependencies := Assoc.insert t.platformDependencies (platform, path) dependencies }

/-! ### Asking a tree -/

/-- The number of the file at a path. -/
def idOf? (t : Tree) (path : Path) : Option ModuleId := (Assoc.get? t.files path).map (·.id)

/-- How often the dependencies of a path were looked up in the table. -/
def lookupsOf (t : Tree) (path : Path) : Nat := (Assoc.get? t.lookups path).getD 0

/-- A bound on the questions of a discovery: no file is looked at twice, and the first path without
a file ends it. -/
def bound (t : Tree) : Nat := 2 * t.files.length + 2

/-- The dependencies of a file as the table has them. -/
def dependenciesOf (t : Tree) (path : Path) : Except ResolveFault (List Path) :=
  match Assoc.get? t.faults path, Assoc.get? t.files path with
  | some fault, _ => .error fault
  | none, some file => .ok file.dependencies
  | none, none => .error (.missing path)

/-- The module of a file as the table has it. -/
def moduleOf (t : Tree) (path : Path) : Except ResolveFault Module :=
  match Assoc.get? t.files path with
  | some file => .ok ⟨file.id, path, file.kind⟩
  | none => .error (.missing path)

/-- A module as the table builds it. -/
def buildModule (t : Tree) (job : BuildJob) (m : Module) : Except ResolveFault BuiltModule :=
  match Assoc.get? t.faults m.path, Assoc.get? t.files m.path with
  | some fault, _ => .error fault
  | none, none => .error (.missing m.path)
  | none, some file =>
    let url := s!"http://{job.host}:{job.port}{m.path}?platform={job.platform}"
    .ok ⟨file.id, define file.code file.id, url, url ++ "&map=true"⟩

/-- Answers for the module at a path. -/
def askModule (path : Path) (t : Tree) : Except ResolveFault Module × Tree :=
  let answer := match Assoc.get? t.stageFaults (Stage.module, path) with
    | some fault => .error fault
    | none => t.moduleOf path
  (answer, { t with calls := t.calls ++ [.module path] })

/-- Answers for the dependencies of a file. -/
def askDependencies (lookup : Lookup) (t : Tree) : Except ResolveFault (List Path) × Tree :=
  let t := { t with calls := t.calls ++ [.dependencies lookup] }
  match Assoc.get? t.stageFaults (Stage.dependencies, lookup.file) with
  | some fault => (.error fault, t)
  | none =>
    let answer := (t.dependenciesOf lookup.file).map fun own =>
      (Assoc.get? t.platformDependencies (lookup.platform, lookup.file)).getD own
    (answer,
      { t with lookups := Assoc.insert t.lookups lookup.file (t.lookupsOf lookup.file + 1) })

/-- Takes an order. -/
def takeOrder (job : BuildJob) (t : Tree) : Tree := { t with calls := t.calls ++ [.build job] }

/-- Delivers a build as the tree stands now, where builds are not held back. -/
def deliver (job : BuildJob) (t : Tree) : Option (Except ResolveFault (List BuiltModule)) × Tree :=
  if t.isHeld then (none, t)
  else
    match job.modules.findSome? fun m => Assoc.get? t.stageFaults (Stage.build, m.path) with
    | some fault => (some (.error fault), t)
    | none =>
      if t.buildsEmpty then (some (.ok []), t)
      else (some (job.modules.mapM (t.buildModule job)), { t with builds := t.builds + 1 })

/-- The tree as a resolver. -/
def resolver : Resolver Tree := ⟨askModule, askDependencies, takeOrder, deliver, bound⟩

end Tree

end HotReload
