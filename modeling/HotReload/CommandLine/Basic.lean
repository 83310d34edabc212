import HotReload.Path

/-!
# What a command line asks for

A command line starts the server, with switches for the whole program and options that say something
about its settings. Whatever else it holds, it is refused for one of the reasons of `Refusal`; to
ask for help or for the version counts among them, because the program then ends without a server.
-/

namespace HotReload

/-- What a command line says of the settings. -/
structure ServeOptions where
  root : Option Path := none
  host : Option String := none
  port : Option UInt16 := none
  /-- The file that holds settings. -/
  config : Option Path := none
  debounceMs : Option UInt64 := none
  deriving Inhabited

/-- Switches for the whole program. -/
structure Switches where
  /-- Whether details are logged. -/
  verbose : Bool := false
  /-- Whether only errors are logged. -/
  quiet : Bool := false
  noColor : Bool := false
  deriving DecidableEq, Inhabited

/-- A command line that starts the server. -/
structure CommandLine where
  switches : Switches
  options : ServeOptions
  deriving Inhabited

namespace CommandLine

/-- Why a command line starts no server. -/
inductive Refusal where
  /-- Help is asked for. -/
  | help
  /-- The version is asked for. -/
  | version
  /-- Nothing is asked for. -/
  | nothing
  /-- There are switches but no command. -/
  | noCommand
  /-- A word stands where a command has to. -/
  | unknownCommand
  /-- A word is neither a switch nor an option that is known here. -/
  | unknownArgument
  /-- A switch is given a value. -/
  | needlessValue
  /-- An option has no value, or an empty one where a path is wanted. -/
  | missingValue
  /-- The value of an option is no number, or too large. -/
  | badValue
  /-- Two arguments exclude each other, or one is given twice. -/
  | conflict
  deriving DecidableEq, Inhabited

/-- The exit code of the program that ends on a refusal. -/
def Refusal.exitCode : Refusal → Nat
  | .help | .version => 0
  | _ => 2

end CommandLine

end HotReload
