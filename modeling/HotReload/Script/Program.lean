import HotReload.Script.Statement

/-!
# Whole sources

`scan` reads a source text as a whole: it gives the import records by their place, or the line of
the first fault. A place where no token can be read comes before all noted faults, and these come
before the place where parsing stopped.
-/

namespace HotReload.Script

/-- The rules of the grammar; `fuel` bounds how deep they call each other. -/
def rules : Nat → Rules
  | 0 => Rules.halting
  | fuel + 1 =>
    { statement := fun place source cursor => Parse.statement (rules fuel) place source cursor
      expression := fun source cursor => Parse.expression (rules fuel) source cursor
      assignment := fun colon source cursor => Parse.assignment (rules fuel) colon source cursor
      unary := fun source cursor => Parse.unary (rules fuel) source cursor
      leftHand := fun source cursor => Parse.leftHand (rules fuel) source cursor
      binding := fun source cursor => Parse.bindingPattern (rules fuel) source cursor
      type := fun source cursor => Parse.type (rules fuel) source cursor
      element := fun last source cursor => Parse.element (rules fuel) last source cursor }

namespace Parse

/-- The statements of a source up to its end. -/
def program (g : Rules) : Parse Unit := do
  advance
  repeatWhile do
    if ← atEnd then return false
    g.statement .listed
    return true

end Parse

/-- How deep the rules may call each other in a source. -/
def depthBound (s : Source) : Nat := 16 * s.size + 64

/-- Where the first line begins behind a leading `#!`. -/
def Source.start (s : Source) : Nat :=
  if s.hasAt 0 ['#', '!'] then s.skip (fun c => !Lexer.isLineEnd c) 2 else 0

/-- The surroundings of a whole source. -/
def Source.context (s : Source) : Context :=
  { awaitAllowed := s.dialect.strict, ambient := s.dialect.declarations }

/-- The state before the first token. -/
def Cursor.initial (s : Source) : Cursor s where
  token := ⟨.eof, s.start, s.start, false, none⟩
  last := s.start
  context := s.context
  spans := ⟨Nat.le_refl _, fun _ is => by cases is⟩
  ahead := Nat.le_refl _
  gathered := .nil

/-- How a parse of a whole source ends: its state, and where it stopped, if it did. -/
def parsed (s : Source) : Cursor s × Option Halt :=
  match Parse.program (rules (depthBound s)) s (.initial s) with
  | .ok () cursor => (cursor, none)
  | .error halt cursor => (cursor, some halt)

/-- The place of the earlier of two exports with one name, for the first name that comes twice;
`exports` holds the latest first. -/
def doubleExport (exports : List (String × Nat)) : Option Nat :=
  go [] exports.reverse
where
  /-- The first name of the list that was seen before. -/
  go (seen : List (String × Nat)) : List (String × Nat) → Option Nat
    | [] => none
    | (name, place) :: rest =>
      match seen.lookup name with
      | some earlier => some earlier
      | none => go ((name, place) :: seen) rest

/-- Whether a comment says that the source is written in another dialect of types. -/
def isForeignComment (s : Source) (comment : Nat × Nat) : Bool :=
  let mark := "@flow".toList
  (List.range (comment.2 - comment.1)).any fun i =>
    comment.1 + i + mark.length ≤ comment.2 && s.hasAt (comment.1 + i) mark

/-- The place of the first fault of a parse, given where it stopped. -/
def firstFault (s : Source) (cursor : Cursor s) (halt : Option Halt) : Option Nat :=
  let fault := match halt with
    | some h => if h.lexical then some h.position else cursor.fault <|> some h.position
    | none =>
      cursor.fault <|> cursor.covers.getLast? <|>
        (if s.dialect.typed then none else doubleExport cursor.exports)
  match fault, cursor.comment with
  | some place, some comment =>
    if !s.dialect.typed && isForeignComment s comment then some comment.1 else some place
  | fault, _ => fault

/-- The import records of a source by their place, or the line of its first fault. -/
def scan (dialect : Dialect) (text : String) : Except Nat Imports :=
  let source := Source.ofText dialect text
  let (cursor, halt) := parsed source
  match firstFault source cursor halt with
  | some place => .error (source.lineAt place)
  | none => .ok (Imports.sorted cursor.records.reverse)

end HotReload.Script
