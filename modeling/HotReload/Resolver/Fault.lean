import HotReload.Path

/-!
# What can go wrong in a lookup or a build
-/

namespace HotReload

/-- Why a resolver refused an answer. -/
inductive ResolveFault where
  /-- A file that should be there is not. -/
  | missing (path : Path)
  /-- A specifier stands for no file. -/
  | unresolved (specifier : String) (from_ : Path) (reason : String)
  /-- A file cannot be read as code or data. -/
  | transform (file : Path) (message : String) (line : Option UInt32)
  /-- Anything else. -/
  | other (message : String)
  deriving Inhabited

/-- The text of a fault. -/
def ResolveFault.message : ResolveFault → String
  | .missing path => s!"File not found: {path}"
  | .unresolved specifier from_ reason =>
    s!"Unable to resolve module '{specifier}' from '{from_}': {reason}"
  | .transform file message _ => s!"Transform error in {file}: {message}"
  | .other message => message

/-- Why a session could not be seeded or updated. -/
inductive UpdateFault where
  | missing (path : Path)
  | unresolved (specifier : String) (from_ : Path) (reason : String)
  | transform (file : Path) (message : String) (line : Option UInt32)
  /-- The entry file of the session is gone. -/
  | entryLost (entry : Path)
  /-- Anything else; the message is for the server's log alone. -/
  | internal (message : String)
  deriving Inhabited

namespace UpdateFault

/-- The text of a fault. -/
def message : UpdateFault → String
  | .missing path => s!"File not found: {path}"
  | .unresolved specifier from_ reason =>
    s!"Unable to resolve module '{specifier}' from '{from_}': {reason}"
  | .transform file message _ => s!"Transform error in {file}: {message}"
  | .entryLost entry => s!"Session entry file is no longer available: {entry}"
  | .internal message => s!"Internal error: {message}"

/-- What a resolver's fault means for a session. -/
def ofResolve : ResolveFault → UpdateFault
  | .missing path => .missing path
  | .unresolved specifier from_ reason => .unresolved specifier from_ reason
  | .transform file message line => .transform file message line
  | .other message => .internal message

/-- Whether the session has lost its entry file. -/
def isEntryLost : UpdateFault → Bool
  | .entryLost _ => true
  | _ => false

end UpdateFault

end HotReload
