/-!
# Lines on the terminal

What the server does is told in lines: a symbol, a space and a message. Where colours are used the
symbol is bold and has the colour of its level, and a warning or an error is coloured as a whole.
-/

namespace HotReload.Terminal

/-- What a line is about. -/
inductive Level where
  | success
  | info
  | warning
  | error
  deriving DecidableEq, Inhabited

/-- The symbol in front of a line. -/
def Level.symbol : Level → String
  | .success => "✓"
  | .info => "ℹ"
  | .warning => "⚠"
  | .error => "✗"

/-- The number of the colour of a level. -/
def Level.colour : Level → Nat
  | .success => 32
  | .info => 34
  | .warning => 33
  | .error => 31

/-- Whether the message has the colour of its level too. -/
def Level.isUrgent : Level → Bool
  | .warning | .error => true
  | _ => false

/-- A control sequence that sets how text looks. -/
def look (code : Nat) : String := s!"\x1b[{code}m"

/-- A text in a colour. -/
def inColour (colour : Nat) (text : String) : String := look colour ++ text ++ look 39

/-- A text in bold. -/
def bold (text : String) : String := look 1 ++ text ++ look 0

/-- A line, with the line feed at its end. -/
def line (coloured : Bool) (level : Level) (message : String) : String :=
  if coloured then
    let message := if level.isUrgent then inColour level.colour message else message
    bold (inColour level.colour level.symbol) ++ " " ++ message ++ "\n"
  else level.symbol ++ " " ++ message ++ "\n"

/-- Whether the environment and the terminal ask for colours: `NO_COLOR` rules them out whatever its
value, `FORCE_COLOR` asks for them, and without either the terminal decides. -/
def wantsColours (environment : List (String × String)) (terminalHasColours : Bool) : Bool :=
  if (environment.lookup "NO_COLOR").isSome then false
  else (environment.lookup "FORCE_COLOR").isSome || terminalHasColours

end HotReload.Terminal
