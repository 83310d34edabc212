import HotReload.Resolver.Basic

/-!
# Discovering a graph

`Search` is the breadth-first discovery of a program's graph, as it stands between two answers of
the resolver: for each path in turn the module is asked for and then, where it is source, its direct
dependencies. A path is queued when it is first met.

* `Search.next`: the question of a search, and what becomes of the search with its answer.
* `Search.discover`: the search from an entry file to its end.
-/

namespace HotReload

/-- A discovery in progress. -/
structure Search where
  platform : String
  entry : Path
  /-- The path being looked at. -/
  path : Path
  /-- The paths to look at after it. -/
  waiting : List Path := []
  /-- The paths met so far. -/
  met : List Path
  /-- The graph of the paths looked at before. -/
  graph : Graph := {}
  /-- The module at the path, while its dependencies are asked for. -/
  pending : Option Module := none
  deriving Inhabited

namespace Search

/-- The search from an entry file. -/
def start (platform : String) (entry : Path) : Search :=
  { platform, entry, path := entry, met := [entry] }

/-- The dependencies that were not met before, each once. -/
def fresh (met : List Path) : List Path → List Path
  | [] => []
  | p :: ps => if met.contains p then fresh met ps else p :: fresh (p :: met) ps

/-- Takes the path being looked at into the graph and turns to the next one; where there is none,
the graph is complete. -/
def absorb (s : Search) (m : Module) (deps : List Path) : Search ⊕ Graph :=
  let found := fresh s.met deps
  let graph : Graph := ⟨s.graph.modules ++ [m], Assoc.insert s.graph.shallow s.path deps⟩
  match s.waiting ++ found with
  | [] => .inr graph
  | path :: waiting =>
    .inl { s with path, waiting, met := s.met ++ found, graph, pending := none }

/-- The question of a search. -/
def next (s : Search) : Query (Except ResolveFault (Search ⊕ Graph)) :=
  match s.pending with
  | none =>
    .module s.path fun answer => answer.map fun m =>
      if m.isSource then .inl { s with pending := some m } else s.absorb m []
  | some m =>
    .dependencies ⟨s.platform, s.path, s.entry⟩ fun answer => answer.map (s.absorb m)

/-- Runs a search against a resolver; `none` where the fuel runs out. -/
def run {σ : Type} (r : Resolver σ) : Nat → Search → σ → Option (Except ResolveFault Graph) × σ
  | 0, _, st => (none, st)
  | fuel + 1, s, st =>
    match s.next.answer r st with
    | (.error e, st) => (some (.error e), st)
    | (.ok (.inr g), st) => (some (.ok g), st)
    | (.ok (.inl s), st) => run r fuel s st

/-- Discovers the graph of an entry file. A discovery that goes on for longer than the resolver said
it could is broken off. -/
def discover {σ : Type} (r : Resolver σ) (platform : String) (entry : Path) (st : σ) :
    Except ResolveFault Graph × σ :=
  match (start platform entry).run r (r.bound st) st with
  | (some answer, st) => (answer, st)
  | (none, st) => (.error (.other "The discovery of the graph was broken off"), st)

end Search

end HotReload
