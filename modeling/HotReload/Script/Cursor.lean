import HotReload.Script.Forward
import HotReload.Script.Imports

/-!
# Parsing

A parse reads tokens of a source text one by one. It stops at a `Halt`; lesser faults are noted and
parsing goes on. `attempt` undoes a parse that halts.

A parse moves forward only, and records a literal when it goes past it. So the records are spans of
the source, each behind the one before it, whatever the grammar does.

* `Cursor`: the current token and what was gathered so far.
* `Gathered`: the records that were made up to an index.
* `advance`, `expect`, `eat?`, `endStatement`: the moves of the grammar.
* `repeatUntil`, `delimited`: its repetitions, bounded by the length of the source.
-/

namespace HotReload.Script

/-- What the surroundings allow. -/
structure Context where
  /-- `in` is an operator. -/
  inOperator : Bool := true
  yieldAllowed : Bool := false
  awaitAllowed : Bool := false
  returnAllowed : Bool := false
  /-- Inside a decorator, where `[` does not go on with the expression. -/
  decorator : Bool := false
  /-- Inside a declaration without code. -/
  ambient : Bool := false
  /-- A conditional type may not begin here. -/
  noConditional : Bool := false
  deriving Inhabited

/-- Where parsing stopped, and whether no token could be read there. -/
structure Halt where
  position : Nat
  lexical : Bool
  deriving Inhabited

/-- Records of literals that end at an index or before it, the latest first. None is empty, and each
stands behind the one before it. -/
inductive Gathered (s : Source) : Nat → List ImportRecord → Prop where
  | nil {n : Nat} : Gathered s n []
  | cons {m i j n : Nat} {records : List ImportRecord} (specifier : String) (kind : ImportKind)
      (earlier : Gathered s m records) (behind : m ≤ i) (filled : i < j) (inside : i < s.size)
      (before : j ≤ n) :
      Gathered s n (⟨specifier, kind, s.byteOffset i, s.byteOffset j⟩ :: records)

theorem Gathered.mono {s : Source} {m n : Nat} {records : List ImportRecord}
    (h : Gathered s m records) (le : m ≤ n) : Gathered s n records := by
  cases h with
  | nil => exact .nil
  | cons specifier kind earlier behind filled inside before =>
    exact .cons specifier kind earlier behind filled inside (Nat.le_trans before le)

/-- The state of a parse of a source. -/
structure Cursor (s : Source) where
  token : Token
  /-- The end of the previous token. -/
  last : Nat := 0
  context : Context := {}
  /-- The first lesser fault. -/
  fault : Option Nat := none
  /-- The fields with an initialiser in object literals that turned out to be no pattern so far. -/
  covers : List Nat := []
  /-- The import records, the latest first. -/
  records : List ImportRecord := []
  /-- The exported names with their places, the latest first. -/
  exports : List (String × Nat) := []
  /-- The first comment. -/
  comment : Option (Nat × Nat) := none
  /-- The places where no arrow function begins, although its parameters might seem to. -/
  noArrow : List Nat := []
  spans : token.Spans s
  ahead : last ≤ token.start
  gathered : Gathered s last records

namespace Cursor

variable {s : Source}

/-- The state with another token in place of the current one. -/
def retake (c : Cursor s) (t : Token) (on : c.last ≤ t.start ∧ t.Spans s) : Cursor s :=
  { c with token := t, comment := c.comment <|> t.comment, spans := on.2, ahead := on.1 }

/-- The state at the next token. -/
def next (c : Cursor s) (t : Token) (on : c.token.stop ≤ t.start ∧ t.Spans s) : Cursor s :=
  { c with
    token := t, last := c.token.stop, comment := c.comment <|> t.comment
    spans := on.2, ahead := on.1
    gathered := c.gathered.mono (Nat.le_trans c.ahead c.spans.ordered) }

/-- The state at the next token, where the current one is a literal that is recorded. -/
def nextRecording (c : Cursor s) (t : Token) (on : c.token.stop ≤ t.start ∧ t.Spans s)
    (kind : ImportKind) (specifier : String) (literal : c.token.cls = .string specifier) :
    Cursor s :=
  have ⟨filled, inside⟩ := c.spans.literal specifier literal
  { c.next t on with
    records := ⟨specifier, kind, s.byteOffset c.token.start, s.byteOffset c.token.stop⟩ :: c.records
    gathered := .cons specifier kind c.gathered c.ahead filled inside (Nat.le_refl _) }

end Cursor

/-- A parse of a source text. -/
def Parse (α : Type) : Type := (s : Source) → EStateM Halt (Cursor s) α

instance : Monad Parse where
  pure a := fun _ => pure a
  bind p f := fun s => p s >>= fun a => f a s

instance : MonadReaderOf Source Parse where
  read := fun s => pure s

namespace Parse

/-! ### Looking -/

/-- Something of the state. -/
def look {α : Type} (f : {s : Source} → Cursor s → α) : Parse α := fun _ cursor =>
  .ok (f cursor) cursor

/-- Changes something of the state. -/
def modify (f : {s : Source} → Cursor s → Cursor s) : Parse Unit := fun _ cursor =>
  .ok () (f cursor)

/-- The current token. -/
def current : Parse Token := look fun c => c.token

/-- Where the current token begins. -/
def here : Parse Nat := look fun c => c.token.start

/-- Where the previous token ends. -/
def lastEnd : Parse Nat := look fun c => c.last

/-- What the surroundings allow. -/
def context : Parse Context := look fun c => c.context

/-- What the source may hold. -/
def dialect : Parse Dialect := do return (← read).dialect

/-- Whether the source may hold type annotations. -/
def isTyped : Parse Bool := do return (← dialect).typed

/-- Whether the current token is a mark. -/
def atMark (text : String) : Parse Bool := do return (← current).isMark text

/-- Whether the current token is a word. -/
def atWord (text : String) : Parse Bool := do return (← current).isWord text

/-- Whether the source is at its end. -/
def atEnd : Parse Bool := do return (← current).cls = .eof

/-- Whether a line ends before the current token. -/
def onNewLine : Parse Bool := do return (← current).newline

/-! ### Faults -/

/-- Stops at a place. -/
def haltAt {α : Type} (position : Nat) : Parse α := fun _ cursor => .error ⟨position, false⟩ cursor

/-- Stops at the current token. -/
def unexpected {α : Type} : Parse α := do haltAt (← here)

/-- Notes a fault and goes on. -/
def noteAt (position : Nat) : Parse Unit :=
  modify fun c => { c with fault := c.fault <|> some position }

/-- Notes a fault at the current token and goes on. -/
def note : Parse Unit := do noteAt (← here)

/-! ### Moving -/

/-- Goes on to the token that is read behind the current one, or stops where there is none. -/
def goOn (lex : Source → Nat → Except Lexer.Fault Token) (forward : Lexer.Forward lex) :
    Parse Unit := fun s cursor =>
  match read : lex s cursor.token.stop with
  | .error position => .error ⟨position, true⟩ cursor
  | .ok t => .ok () (cursor.next t (forward read))

/-- Goes on in the same way, but does not count the current token as the previous one. -/
def goOver (lex : Source → Nat → Except Lexer.Fault Token) (forward : Lexer.Forward lex) :
    Parse Unit := fun s cursor =>
  match read : lex s cursor.token.stop with
  | .error position => .error ⟨position, true⟩ cursor
  | .ok t =>
    have ⟨behind, spans⟩ := forward read
    have ahead := Nat.le_trans cursor.ahead (Nat.le_trans cursor.spans.ordered behind)
    .ok () (cursor.retake t ⟨ahead, spans⟩)

/-- Reads the current token anew. -/
def retake (lex : Source → Token → Except Lexer.Fault Token) (keeps : Lexer.Keeps lex) :
    Parse Unit := fun s cursor =>
  match read : lex s cursor.token with
  | .error position => .error ⟨position, true⟩ cursor
  | .ok t =>
    have ⟨same, spans⟩ := keeps cursor.spans read
    .ok () (cursor.retake t ⟨same ▸ cursor.ahead, spans⟩)

/-- Goes on to the next token. -/
def advance : Parse Unit := goOn Lexer.token Lexer.forward_token

/-- Goes past a string literal, and records it. -/
def literal (kind : ImportKind) : Parse Unit := fun s cursor =>
  match cls : cursor.token.cls with
  | .string specifier =>
    match read : Lexer.token s cursor.token.stop with
    | .error position => .error ⟨position, true⟩ cursor
    | .ok t => .ok () (cursor.nextRecording t (Lexer.forward_token read) kind specifier cls)
  | _ => .error ⟨cursor.token.start, false⟩ cursor

/-- The token after the current one, where it can be read. -/
def peek? : Parse (Option Token) := do
  return (Lexer.token (← read) (← current).stop).toOption

/-- Whether the token after the current one satisfies a test. -/
def peekIs (p : Token → Bool) : Parse Bool := do return ((← peek?).map p).getD false

/-- Goes past a mark, where it is current. -/
def eat? (text : String) : Parse Bool := do
  if ← atMark text then advance; return true
  else return false

/-- Goes past a word, where it is current. -/
def eatWord? (text : String) : Parse Bool := do
  if ← atWord text then advance; return true
  else return false

/-- Goes past a mark, which has to be current. -/
def expect (text : String) : Parse Unit := do
  if ← atMark text then advance else unexpected

/-- Goes past a word, which has to be current. -/
def expectWord (text : String) : Parse Unit := do
  if ← atWord text then advance else unexpected

/-- Whether a statement may end before the current token. -/
def canEndStatement : Parse Bool := do
  let t ← current
  return t.newline || t.isMark ";" || t.isMark "\x7d" || t.cls = .eof

/-- Ends a statement; what is missing is reported at the end of the previous token. -/
def endStatement : Parse Unit := do
  if ← eat? ";" then return
  if ← canEndStatement then return
  haltAt (← lastEnd)

/-! ### Splitting marks -/

/-- Takes the first character of the current mark as the current token. -/
def splitMark : Parse Unit := retake (fun _ t => .ok t.firstMark) Lexer.keeps_firstMark

/-- Whether the current token is a mark that begins with a character. -/
def startsMark (c : Char) : Parse Bool := do
  match (← current).cls with
  | .mark text => return text.toList.head? = some c
  | _ => return false

/-- Goes past a closing angle, which longer marks may begin with. -/
def expectAngle : Parse Unit := do
  if ← startsMark '>' then splitMark; advance
  else unexpected

/-! ### Trying -/

/-- The result of a parse, or nothing, and all undone, where it halts. What is known of the places
where no arrow function begins is kept. -/
def attempt {α : Type} (p : Parse α) : Parse (Option α) := fun source cursor =>
  match p source cursor with
  | .ok a cursor => .ok (some a) cursor
  | .error _ after => .ok none { cursor with noArrow := after.noArrow }

/-- Whether a parse says so; all is undone where it does not, but for what is known of the places
where no arrow function begins. -/
def orUndo (p : Parse Bool) : Parse Bool := fun source cursor =>
  match p source cursor with
  | .ok false after => .ok false { cursor with noArrow := after.noArrow }
  | result => result

/-- What a parse gives, without moving; `otherwise` where it halts. -/
def lookahead {α : Type} (otherwise : α) (p : Parse α) : Parse α := fun source cursor =>
  match p source cursor with
  | .ok a _ => .ok a cursor
  | .error _ _ => .ok otherwise cursor

/-! ### Surroundings -/

/-- Parses in other surroundings. -/
def within {α : Type} (change : Context → Context) (p : Parse α) : Parse α := do
  let before ← context
  modify fun c => { c with context := change c.context }
  let a ← p
  modify fun c => { c with context := before }
  return a

/-! ### Repetition -/

/-- Repeats a step while it says so; `fuel` bounds the number of steps. -/
def repeatFor (step : Parse Bool) : Nat → Parse Unit
  | 0 => unexpected
  | fuel + 1 => do
    if ← step then repeatFor step fuel

/-- Repeats a step while it says so. A step that goes on has taken at least one character. -/
def repeatWhile (step : Parse Bool) : Parse Unit := do
  repeatFor step ((← read).size + 2)

/-- Repeats an item until a mark is current, and goes past that mark. -/
def repeatUntil (close : String) (item : Parse Unit) : Parse Unit := do
  repeatWhile do
    if ← atMark close then return false
    if ← atEnd then unexpected
    item
    return true
  expect close

/-- Items with commas between them, up to a mark; gives the place of a comma behind the last one. -/
def delimited (close : String) (item : Parse Unit) : Parse (Option Nat) := do
  if ← atMark close then return none
  item
  let trailing ← repeatTail ((← read).size + 2)
  return trailing
where
  /-- What follows an item. -/
  repeatTail : Nat → Parse (Option Nat)
    | 0 => unexpected
    | fuel + 1 => do
      if ← atMark close then return none
      if ← atMark "," then
        let comma ← here
        advance
        if ← atMark close then return some comma
        item
        repeatTail fuel
      else unexpected

/-! ### Exports -/

/-- Records an exported name. -/
def recordExport (name : String) (place : Nat) : Parse Unit :=
  modify fun c => { c with exports := (name, place) :: c.exports }

/-! ### Words -/

/-- Whether the current token is an identifier, the contextual keywords included. -/
def atIdentifier : Parse Bool := do
  match (← current).cls with
  | .word text _ => return !isReserved text
  | _ => return false

/-- Whether the current token is a word of any kind. -/
def atAnyWord : Parse Bool := do return (← current).word?.isSome

/-- Notes `await` and `yield` where they are no identifiers. -/
def checkIdentifier : Parse Unit := do
  let c ← context
  let word := (← current).word?
  if c.awaitAllowed && word = some "await" then note
  if c.yieldAllowed && word = some "yield" then note

/-- Goes past an identifier and gives its text. -/
def identifier : Parse String := do
  if ← atIdentifier then
    let text := (← current).word?.getD ""
    checkIdentifier
    advance
    return text
  else unexpected

/-- Goes past a word of any kind and gives its text. -/
def anyWord : Parse String := do
  match (← current).word? with
  | some text => advance; return text
  | none => unexpected

end Parse

end HotReload.Script
