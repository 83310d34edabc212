import HotReload.Path

/-!
# Why the server does not run

Everything that keeps the server from starting, or stops it, as causes with their wording. The text
of a cause names its field (`Fault.message`); what is shown at the end of the program is
`Fault.report`, which is shorter for faults of listening.
-/

namespace HotReload

/-- Why settings cannot be used. -/
inductive SettingsFault where
  /-- The file that was asked for is not there. -/
  | missing (file : Path)
  /-- The sources cannot be read as settings. -/
  | malformed (reason : String)
  /-- A setting has a value the server cannot work with. -/
  | unusable (field value hint : String)
  deriving Inhabited

/-- The text of a fault of the settings. -/
def SettingsFault.message : SettingsFault → String
  | .missing file =>
    s!"Config file not found: {file}\n\n" ++
      "Hint: Create a fob-hmr.config.json file or fix the --config path"
  | .malformed reason =>
    s!"Invalid configuration: {reason}\n\n" ++
      "Hint: Check fob-hmr.config.json syntax and FOB_HMR_* environment variables"
  | .unusable field value hint =>
    "Invalid value for '" ++ field ++ "': " ++ value ++ "\n\nHint: " ++ hint

/-- Why the server does not listen. -/
inductive ListenFault where
  /-- The address cannot be taken. -/
  | refused (address reason : String)
  /-- The host and port name no address. -/
  | noAddress (target : String)
  /-- Listening came to an end. -/
  | stopped (reason : String)
  deriving Inhabited

/-- The text of a fault of listening. -/
def ListenFault.message : ListenFault → String
  | .refused address reason =>
    s!"Failed to bind to {address}: {reason}\n\n" ++
      "Hint: Is another packager already running? Try a different --port"
  | .noAddress target =>
    "Invalid listen address '" ++ target ++ "'\n\n" ++
      "Hint: Use a host name or IP address, e.g. localhost or 0.0.0.0"
  | .stopped reason => s!"Server stopped unexpectedly: {reason}"

/-- Why the server does not run. -/
inductive Fault where
  | settings (fault : SettingsFault)
  | listen (fault : ListenFault)
  /-- A file or directory is not there. -/
  | missing (path : Path)
  /-- A file could not be read or written. -/
  | disk (reason : String)
  /-- The root cannot be watched. -/
  | watch (reason : String)
  deriving Inhabited

namespace Fault

/-- The text of a fault. -/
def message : Fault → String
  | .settings fault => s!"Configuration error: {fault.message}"
  | .listen fault => s!"Server error: {fault.message}"
  | .missing path => s!"File not found: {path}"
  | .disk reason => s!"I/O error: {reason}"
  | .watch reason => s!"File watcher error: {reason}"

/-- What is shown of a fault when the program ends on it. -/
def report : Fault → String
  | .listen fault => fault.message
  | fault => fault.message

end Fault

end HotReload
