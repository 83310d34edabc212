import HotReload.Graph.Basic
import HotReload.Resolver.Fault

/-!
# Resolvers

A resolver knows the files: it numbers modules, lists the direct dependencies of a file, and builds
modules into code. The rest of the library only asks it.

* `Query α`: a question to a resolver, with what its answer leads to.
* `Resolver σ`: a resolver with state `σ`; `Query.answer` puts a question to it. Lookups are
  answered at once; a build is ordered first and delivered when it is done.
-/

namespace HotReload

/-- The question for the direct dependencies of a file. -/
structure Lookup where
  platform : String
  /-- The file whose dependencies are asked for. -/
  file : Path
  /-- The entry file of the program on whose behalf they are asked for. -/
  entry : Path
  deriving Inhabited

/-- What a build may know of the program around the modules it builds. -/
structure Resolution where
  /-- The modules of the program. -/
  modules : List Module := []
  /-- The direct dependencies of each of them, in import order. -/
  dependencies : ShallowMap := []
  deriving Inhabited

/-- The number of the module at a path; of several the first. -/
def Resolution.idFor? (r : Resolution) (p : Path) : Option ModuleId :=
  (r.modules.find? (·.path == p)).map (·.id)

/-- The order to build some modules of a program. -/
structure BuildJob where
  platform : String
  entry : Path
  /-- What to build, in the order of delivery. -/
  modules : List Module
  resolution : Resolution
  host : String
  port : UInt16
  deriving Inhabited

/-- A built module. -/
structure BuiltModule where
  id : ModuleId
  code : String
  sourceUrl : String
  mapUrl : String
  deriving DecidableEq, Inhabited

/-- Code as the definition of a module under its number. -/
def define (code : String) (id : ModuleId) : String :=
  "__d(function(global, require, module, exports) \x7b\n" ++ code ++
    "\n\x7d, " ++ toString id ++ ");"

/-- A question that a resolver answers at once, with what its answer leads to. -/
inductive Query (α : Type) where
  /-- For the module at a path. -/
  | module (path : Path) (next : Except ResolveFault Module → α)
  /-- For the direct dependencies of a file. -/
  | dependencies (lookup : Lookup) (next : Except ResolveFault (List Path) → α)

/-- Goes on with what an answer leads to. -/
def Query.map {α β : Type} (f : α → β) : Query α → Query β
  | .module path next => .module path (f ∘ next)
  | .dependencies lookup next => .dependencies lookup (f ∘ next)

/-- A resolver with state `σ`. -/
structure Resolver (σ : Type) where
  module : Path → σ → Except ResolveFault Module × σ
  dependencies : Lookup → σ → Except ResolveFault (List Path) × σ
  /-- Takes the order to build. -/
  order : BuildJob → σ → σ
  /-- Delivers what was ordered; `none` while it is still being built. -/
  deliver : BuildJob → σ → Option (Except ResolveFault (List BuiltModule)) × σ
  /-- A bound on the questions that the discovery of a graph can ask. -/
  bound : σ → Nat

/-- Puts a question to a resolver. -/
def Query.answer {σ α : Type} (r : Resolver σ) (st : σ) : Query α → α × σ
  | .module path next => let (a, st) := r.module path st; (next a, st)
  | .dependencies lookup next => let (a, st) := r.dependencies lookup st; (next a, st)

end HotReload
