import HotReload.Endpoint
import HotReload.Message

/-!
# Sessions

A session is what the service knows of one client: the platform and the entry file that it runs, and
the graph of its program. A session whose entry file is gone is no longer active, and stays so.

* `Session.resolution`: what a build may know of the session's program.
* `Session.jobFor?`: the order to build some modules, where any of them belongs to the program.
-/

namespace HotReload

/-- The number of a connection. It stands for a number of 64 bits, and is one as long as fewer than
2 ^ 64 - 1 sessions have been opened. -/
abbrev ConnectionId := Nat

/-- How a connection is named in output. -/
def connectionName (id : ConnectionId) : String := s!"#{id}"

/-- What the service knows of one client. -/
structure Session where
  connection : ConnectionId
  platform : String
  entry : Path
  graph : Graph
  active : Bool := true
  deriving Inhabited

namespace Session

/-- What a build may know of the session's program. -/
def resolution (s : Session) : Resolution := ⟨s.graph.modules, s.graph.shallow⟩

/-- The order to build those of the given modules that belong to the session's program, in the given
order; none where none does. -/
def jobFor? (s : Session) (endpoint : Endpoint) (modules : List Module) : Option BuildJob :=
  match modules.filter fun m => s.graph.containsPath m.path with
  | [] => none
  | reachable =>
    some
      { platform := s.platform
        entry := s.entry
        modules := reachable
        resolution := s.resolution
        host := endpoint.publicHost
        port := endpoint.port }

/-- The update that delivers a build; none where nothing was built. -/
def updateFor (s : Session) (built : List BuiltModule) : Option Payload :=
  if built.isEmpty then none else some (Payload.ofBuild built s.graph.inverse)

/-- Builds some modules; the outer `none` where the build is not delivered at once, the inner one
where there is nothing to send. -/
def build {σ : Type} (r : Resolver σ) (s : Session) (endpoint : Endpoint) (modules : List Module)
    (st : σ) : Option (Except UpdateFault (Option Payload)) × σ :=
  match s.jobFor? endpoint modules with
  | none => (some (.ok none), st)
  | some job =>
    let (answer, st) := r.deliver job (r.order job st)
    (answer.map fun answer =>
      match answer with
      | .error fault => .error (.ofResolve fault)
      | .ok built => .ok (s.updateFor built), st)

end Session

end HotReload
