import HotReload.CommandLine.Basic
import HotReload.Settings.Check
import HotReload.Settings.Environment

/-!
# Loading the settings

Four sources speak, each before the next: the command line, the environment, a file, and the usual
values. The file is the one that the command line names, which then has to be there, or else
`fob-hmr.config.json` in the root that the command line names.

* `Settings.file?`: the file that takes part.
* `Settings.load`: the settings, with an absolute root, checked.
-/

namespace HotReload

/-- What a command line says, as a layer. -/
def Layer.ofOptions (o : ServeOptions) : Layer :=
  (o.root.map fun root => ("root", .string root.text)).toList ++
    (o.host.map fun host => ("host", .string host)).toList ++
    (o.port.map fun port => ("port", .whole port.toNat)).toList ++
    (o.debounceMs.map fun ms => ("debounce_ms", .whole ms.toNat)).toList

/-- What a file says: the fields of the object it holds, of equal keys the last. -/
def Layer.ofFile? (content : ByteArray) : Option Layer := do
  let text ← String.fromUTF8? content
  match Json.parse text with
  | .ok (.object fields) =>
    some (Assoc.ofList (fields.map fun (key, value) => (key, LooseValue.ofJson value)))
  | _ => none

namespace Settings

/-- The name of the file that holds a project's settings. -/
def fileName : String := "fob-hmr.config.json"

/-- The file that takes part, if any, on a disk and from the directory the program runs in. -/
def file? (d : Disk) (here : Path) (o : ServeOptions) : Except SettingsFault (Option Path) :=
  match o.config with
  | some file => if d.isFile (here.join file) then .ok (some file) else .error (.missing file)
  | none =>
    let file := (o.root.getD ⟨"."⟩).join ⟨fileName⟩
    .ok (if d.isFile (here.join file) then some file else none)

/-- What a file says, with nothing said where there is none. -/
def fileLayer (d : Disk) (here : Path) : Option Path → Except SettingsFault Layer
  | none => .ok []
  | some file =>
    match (d.read (here.join file)).toOption.bind Layer.ofFile? with
    | some layer => .ok layer
    | none => .error (.malformed "the file holds no JSON object")

/-- A path from the directory the program runs in, absolute and clean. -/
def absolute (here path : Path) : Path := (here.join path).clean

/-- The settings that the sources make. -/
def load (d : Disk) (here : Path) (o : ServeOptions) (environment : List (String × String)) :
    Except SettingsFault Settings := do
  let file ← fileLayer d here (← file? d here o)
  match ofLayers? [Layer.ofOptions o, Layer.ofEnvironment environment, file] with
  | none => .error (.malformed "a setting is unknown or has a value of the wrong type")
  | some s =>
    let s := { s with root := absolute here s.root }
    match s.fault? d with
    | some fault => .error fault
    | none => .ok s

end Settings

end HotReload
