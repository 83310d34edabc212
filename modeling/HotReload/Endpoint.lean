import HotReload.Json.Typed
import HotReload.Text.Basic

/-!
# Where the service is reached

An endpoint is the host and port that a service listens on. `Endpoint.publicHost` is the host that
clients are told: an address that stands for every interface cannot be dialled, so it becomes
`localhost`.
-/

namespace HotReload

/-- Host and port of a service. -/
structure Endpoint where
  host : String := "localhost"
  port : UInt16 := 8081
  deriving DecidableEq, Inhabited

namespace Endpoint

/-- The hosts that stand for every interface. -/
def wildcards : List String := ["", "0.0.0.0", "::", "[::]"]

/-- The host that clients use. -/
def publicHost (e : Endpoint) : String :=
  let host := Text.trim e.host
  if host ∈ wildcards then "localhost" else host

/-- The endpoint as JSON. -/
def toJson (e : Endpoint) : Json :=
  .object [("host", .string e.host), ("port", .nat e.port.toNat)]

end Endpoint

namespace Json.Typed

/-- A port. -/
def port : Typed UInt16 := fun cs => (unsigned 16 cs).map fun (n, rest) => (n.toUInt16, rest)

/-- An endpoint. -/
def endpoint : Typed Endpoint :=
  record
    [field "host" text fun e host => { e with host },
     field "port" port fun e port => { e with port }]
    true {}

end Json.Typed

end HotReload
