import HotReload.Endpoint
import HotReload.Module

/-!
# Settings of the server

What the server is told before it starts: where the project lies, where to listen, how long to wait
for a file to settle, which paths not to watch and which extensions to try.
-/

namespace HotReload

/-- The settings of the server. -/
structure Settings where
  root : Path := ⟨"."⟩
  host : String := "localhost"
  port : UInt16 := 8081
  /-- How long a file has to stay unchanged before its change is reported, in milliseconds. -/
  debounceMs : UInt64 := 50
  /-- The names and endings of paths that are not watched. -/
  watchIgnore : List String := ["node_modules", "dist", "target", "*.log"]
  /-- The extensions that are tried on a specifier without one. -/
  extensions : List String := [".js", ".jsx", ".mjs", ".cjs", ".ts", ".tsx", ".json"]
  deriving BEq, Inhabited

namespace Settings

/-- The settings as JSON. -/
def toJson (s : Settings) : Json :=
  .object
    [("root", .string s.root.text), ("host", .string s.host), ("port", .nat s.port.toNat),
     ("debounce_ms", .nat s.debounceMs.toNat), ("watch_ignore", .strings s.watchIgnore),
     ("extensions", .strings s.extensions)]

/-- Where the server is reached. -/
def endpoint (s : Settings) : Endpoint := ⟨s.host, s.port⟩

/-- The address the server listens on. -/
def listenTarget (s : Settings) : String := s!"{s.host}:{s.port}"

/-- The address that clients open their connection to. -/
def serverUrl (s : Settings) : String := s!"ws://{s.endpoint.publicHost}:{s.port}/hot"

end Settings

/-- What the server says of itself. -/
structure Status where
  sessions : UInt64
  /-- Whether changes of files are being listened to. -/
  listening : Bool
  deriving DecidableEq, Inhabited

/-- The status as JSON. -/
def Status.toJson (s : Status) : Json :=
  .object [("sessions", .nat s.sessions.toNat), ("listening", .bool s.listening)]

namespace Json.Typed

/-- A word of 64 bits. -/
def word64 : Typed UInt64 := fun cs => (unsigned 64 cs).map fun (n, rest) => (n.toUInt64, rest)

/-- The status. -/
def status : Typed Status :=
  record
    [field "sessions" word64 fun s sessions => { s with sessions },
     field "listening" flag fun s listening => { s with listening }]
    true default

/-- The settings; a field that they do not have is refused. -/
def settings : Typed Settings :=
  record
    [field "root" path fun s root => { s with root },
     field "host" text fun s host => { s with host },
     field "port" port fun s port => { s with port },
     field "debounce_ms" word64 fun s debounceMs => { s with debounceMs },
     field "watch_ignore" (list text) fun s watchIgnore => { s with watchIgnore },
     field "extensions" (list text) fun s extensions => { s with extensions }]
    false {}

end Json.Typed

end HotReload
