import HotReload.Disk
import HotReload.Fault
import HotReload.Settings

/-!
# Settings the server can work with

`Settings.fault?` looks for the first fault in the order root, port, host, extensions; settings
without one are usable (`Settings.Usable`).
-/

namespace HotReload.Settings

/-- Whether a text is an extension: those start with a dot. -/
def isExtension (text : String) : Bool := text.toList.head? = some '.'

/-- What the server needs of its settings. -/
structure Usable (d : Disk) (s : Settings) : Prop where
  root : d.isDirectory s.root = true
  port : s.port ≠ 0
  host : Text.trim s.host ≠ ""
  extensions : s.extensions ≠ []
  dotted : ∀ e ∈ s.extensions, isExtension e = true

/-- The first fault of the settings on a disk. -/
def fault? (d : Disk) (s : Settings) : Option SettingsFault :=
  if !d.isDirectory s.root then
    some (.unusable "root" s.root.text "The project root must be an existing directory")
  else if s.port = 0 then
    some (.unusable "port" "0" "Use a port between 1 and 65535")
  else if Text.trim s.host = "" then
    some (.unusable "host" "" "Use a host name or IP address, e.g. localhost")
  else if s.extensions.isEmpty then
    some (.unusable "extensions" "[]" "List at least one extension, e.g. [\".js\"]")
  else
    (s.extensions.find? fun e => !isExtension e).map fun bad =>
      .unusable "extensions" bad "Extensions start with a dot, e.g. \".tsx\""

end HotReload.Settings
