import HotReload.Graph.Rank
import HotReload.Graph.Search
import HotReload.Module
import HotReload.Session.Basic

/-!
# What a change means for a session

The reaction to a change is found by asking as little as possible. A change outside the session's
program, a deletion, and a change of data or of an asset need no question. For a source file its
direct dependencies are looked up, and only where they are not the cached ones the graph is
discovered anew; then the modules that are new are rebuilt with the changed one, dependencies first.

* `Progress.start`: the first look at a change.
* `Probe.next`: the question that is still open, and how things stand with its answer.
* `Session.react`: all questions asked, and the session with the graph that holds from then on.
-/

namespace HotReload

/-- What a change means for a session. -/
inductive Reaction where
  /-- The file is not part of the program. -/
  | irrelevant
  /-- Modules are to be rebuilt, in this order. -/
  | rebuild (modules : List Module)
  /-- A module of the program is gone. -/
  | deleted (m : Module)
  deriving Inhabited

/-- The question that the reaction to a change waits for. -/
inductive Probe where
  /-- For the direct dependencies of the changed module. -/
  | dependencies (m : Module)
  /-- For the session's graph. -/
  | graph (search : Search)
  deriving Inhabited

/-- The end of a probe: a reaction together with the graph that holds from now on, or the fault that
leaves the session as it was. -/
abbrev Verdict := Except UpdateFault (Graph × Reaction)

/-- How the reaction to a change stands. -/
inductive Progress where
  | probing (probe : Probe)
  | settled (verdict : Verdict)

/-- Whether a change is one of the session's program. -/
def Session.isRelevant (s : Session) (change : Change) : Bool :=
  (s.graph.dependencies? change.path).isSome

namespace Progress

/-- The first look at a change. -/
def start (s : Session) (change : Change) : Progress :=
  if !s.isRelevant change then .settled (.ok (s.graph, .irrelevant))
  else
    match s.graph.moduleAt? change.path with
    | none => .settled (.ok (s.graph, .irrelevant))
    | some m =>
      if change.isDeletion then
        if change.path == s.entry then .settled (.error (.entryLost s.entry))
        else .settled (.ok (s.graph, .deleted m))
      else
        match m.kind with
        | .asset => .settled (.ok (s.graph, .rebuild []))
        | .json => .settled (.ok (s.graph, .rebuild [m]))
        | .source => .probing (.dependencies m)

/-- What a fault of the discovery means: where it is the entry that is missing, the session is
lost. -/
def searchFault (s : Session) (fault : ResolveFault) : UpdateFault :=
  match fault with
  | .missing path => if path == s.entry then .entryLost path else .missing path
  | fault => .ofResolve fault

/-- The reaction to a change that gave the program a new graph: the modules that were not there
before and the changed one, if it is still part of the program. -/
def regraphed (s : Session) (change : Change) (g : Graph) : Reaction :=
  match g.moduleAt? change.path with
  | none => .rebuild []
  | some changed =>
    let rank := Graph.rank s.entry g.shallow
    .rebuild (Graph.orderLeafFirst (g.addedSince s.graph ++ [changed]) rank)

end Progress

/-- The question of a probe. -/
def Probe.next (s : Session) (change : Change) (probe : Probe) : Query Progress :=
  match probe with
  | .dependencies m =>
    .dependencies ⟨s.platform, change.path, s.entry⟩ fun answer =>
      match answer with
      | .error fault => .settled (.error (.ofResolve fault))
      | .ok current =>
        if current == (s.graph.dependencies? change.path).getD [] then
          .settled (.ok (s.graph, .rebuild [m]))
        else .probing (.graph (Search.start s.platform s.entry))
  | .graph search =>
    search.next.map fun answer =>
      match answer with
      | .error fault => .settled (.error (Progress.searchFault s fault))
      | .ok (.inl search) => .probing (.graph search)
      | .ok (.inr g) => .settled (.ok (g, Progress.regraphed s change g))

/-- Asks all that there is to ask; `none` where the fuel runs out. -/
def Progress.run {σ : Type} (r : Resolver σ) (s : Session) (change : Change) :
    Nat → Progress → σ → Option Verdict × σ
  | _, .settled verdict, st => (some verdict, st)
  | 0, .probing _, st => (none, st)
  | fuel + 1, .probing probe, st =>
    let (progress, st) := (probe.next s change).answer r st
    progress.run r s change fuel st

/-- Finds the reaction to a change, and gives the session the graph that it brings. -/
def Session.react {σ : Type} (r : Resolver σ) (s : Session) (change : Change) (st : σ) :
    Except UpdateFault Reaction × Session × σ :=
  match (Progress.start s change).run r s change (r.bound st + 1) st with
  | (some (.ok (graph, reaction)), st) => (.ok reaction, { s with graph }, st)
  | (some (.error fault), st) => (.error fault, s, st)
  | (none, st) => (.error (.internal "The discovery of the graph was broken off"), s, st)

end HotReload
