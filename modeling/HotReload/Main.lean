import HotReload.CommandLine.Reader
import HotReload.Http.Server
import HotReload.Project.Basic
import HotReload.Startup
import HotReload.Terminal.Line

/-!
# The program

The program reads its command line and its settings, and then serves its standard input. A line
there is `get TARGET`, `open TARGET`, `close NUMBER`, `changed PATH` or `deleted PATH`; what a
client is answered, and the frames that go to it, are written to standard output. Whoever runs the
program puts a listener on the network and a watcher of the disk in front of it.
-/

namespace HotReload

/-- What the program is told with, and ends with, when it is asked for help. -/
def usage : String :=
  "Hot module replacement server for live code reload\n\n" ++
    "Usage: hot-reload [-v | -q] [--no-color] serve [--root DIR] [--host HOST] [--port PORT]\n" ++
    "                  [--config FILE] [--debounce-ms MS]\n"

/-! ### The disk and the environment -/

/-- Reads a directory and all that is below it. -/
partial def readBelow (d : Disk) (place : String) : IO Disk := do
  let mut d := d.makeDirectory ⟨place⟩
  for entry in ← ((← IO.currentDir) / place).readDir do
    let path := entry.path.toString
    if ← entry.path.isDir then d ← readBelow d path
    else d := d.write ⟨path⟩ (← IO.FS.readBinFile entry.path)
  return d

/-- Reads a file or a directory, where there is one. -/
def readPlace (d : Disk) (path : Path) : IO Disk := do
  try readBelow d path.text
  catch _ =>
    try return d.write path (← IO.FS.readBinFile path.text)
    catch _ => return d

/-- The variables that may name settings. -/
def readEnvironment : IO (List (String × String)) := do
  let mut environment := []
  for key in Settings.keys do
    let name := (Layer.variablePrefix ++ key).toUpper
    if let some value ← IO.getEnv name then
      environment := environment ++ [(name, value)]
  return environment

/-- Whether lines are to be coloured. -/
def readColours : IO Bool := do
  let mut environment := []
  for name in ["NO_COLOR", "FORCE_COLOR"] do
    if let some value ← IO.getEnv name then
      environment := environment ++ [(name, value)]
  return Terminal.wantsColours environment (← (← IO.getStderr).isTty)

/-! ### Serving -/

/-- The server with the project it serves, and how many frames of each socket were written out. -/
structure Serving where
  server : Http.Server
  project : Project
  shown : List (ConnectionId × Nat) := []

namespace Serving

/-- The text of a frame. -/
def frameText : Http.Frame → String
  | .text text => text
  | .pong payload => s!"pong {payload}"
  | .close => "close"

/-- Lets the server go on, and writes out the frames that it has come to write. -/
def settle (w : Serving) : IO Serving := do
  let (server, project) := w.server.settle Project.resolver w.project
  let mut shown := w.shown
  for (id, socket) in server.sockets do
    for frame in socket.written.drop ((Assoc.get? shown id).getD 0) do
      IO.println s!"{connectionName id} {frameText frame}"
    shown := Assoc.insert shown id socket.written.length
  return { server, project, shown }

/-- The headers of a request that opens a WebSocket. -/
def openingHeaders : List Http.Header :=
  [⟨"connection", "upgrade"⟩, ⟨"upgrade", "websocket"⟩, ⟨"sec-websocket-version", "13"⟩,
   ⟨"sec-websocket-key", ""⟩]

/-- Answers a request. -/
def request (w : Serving) (target : String) (headers : List Http.Header) : IO Serving := do
  match Http.Target.parse? target with
  | none => IO.println "400"; return w
  | some target =>
    let (answer, server, project) :=
      w.server.answer Project.resolver { method := "GET", target, headers } w.project
    match answer with
    | .response r => IO.println s!"{r.status} {r.body}"
    | .upgraded id _ => IO.println s!"101 {connectionName id}"
    settle { w with server, project }

/-- Takes up a change of a file. -/
def change (w : Serving) (kind : ChangeKind) (path : Path) : IO Serving := do
  let disk ← readPlace (w.project.disk.remove path) path
  let (_, service) := w.server.service.emit ⟨kind, path⟩
  settle
    { w with server := { w.server with service }, project := { w.project with disk } }

/-- Serves one line. -/
def line (w : Serving) (text : String) : IO Serving := do
  match Text.splitFirst? ' ' (Text.trim text) with
  | some ("get", target) => w.request target []
  | some ("open", target) => w.request target openingHeaders
  | some ("close", number) =>
    settle { w with server := w.server.receive (number.toNat?.getD 0) .close }
  | some ("changed", path) => w.change .modified ⟨path⟩
  | some ("deleted", path) => w.change .deleted ⟨path⟩
  | _ => IO.println "?"; return w

/-- Serves standard input to its end. -/
partial def run (w : Serving) (stdin : IO.FS.Stream) : IO Unit := do
  let text ← stdin.getLine
  if !text.isEmpty then (← w.line text).run stdin

end Serving

/-- Starts the server that a command line asks for, and gives the exit code. -/
def serve (c : CommandLine) : IO UInt32 := do
  let coloured := !c.switches.noColor && (← readColours)
  let tell := fun level message => IO.eprint (Terminal.line coloured level message)
  let here : Path := ⟨(← IO.currentDir).toString⟩
  let places := [c.options.root, c.options.config].filterMap fun place => place.map here.join
  let disk ← (here :: places).foldlM readPlace {}
  match Startup.prepare disk here c.options (← readEnvironment) with
  | .error fault =>
    tell .error fault.report
    return 1
  | .ok startup =>
    let settings := startup.settings
    tell .info s!"Project root: {settings.root}"
    tell .success s!"HMR server running at {settings.serverUrl}"
    tell .info "Clients connect with ?platform=<name>&bundleEntry=<path>"
    let server : Http.Server :=
      { root := settings.root, service := { endpoint := settings.endpoint } }
    let project : Project := { root := settings.root, extensions := settings.extensions, disk }
    ({ server, project } : Serving).run (← IO.getStdin)
    tell .success "HMR server stopped"
    return 0

end HotReload

/-- Reads the command line and does what it asks for. -/
def main (args : List String) : IO UInt32 := do
  match HotReload.CommandLine.ofWords args with
  | .ok c => HotReload.serve c
  | .error refusal =>
    if refusal.exitCode = 0 then IO.print HotReload.usage else IO.eprint HotReload.usage
    return refusal.exitCode.toUInt32
