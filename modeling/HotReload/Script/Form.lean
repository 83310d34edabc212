import HotReload.Script.Cursor

/-!
# Forms of expressions

What the grammar has to know of an expression after it was read: whether it may be assigned to, and
whether it is a name or the head of a call. `Form` holds that and no more.

* `Form.asTarget`: the expression read again as the left side of an assignment.
* `Rules`: the parses that call each other in a circle.
-/

namespace HotReload.Script

/-- An expression read as a pattern: where it is none, if so, and the fields with an initialiser
that stand in it as defaults. -/
structure Target where
  fault : Option Nat := none
  covers : List Nat := []
  deriving Inhabited

/-- Two parts of a pattern. -/
def Target.and (a b : Target) : Target := ⟨a.fault <|> b.fault, a.covers ++ b.covers⟩

/-- What an expression is. -/
inductive Shape where
  /-- An identifier. -/
  | name (text : String)
  /-- A property of a value. -/
  | member
  /-- An array literal, as a pattern. -/
  | array (target : Target)
  /-- An object literal, as a pattern. -/
  | object (target : Target)
  /-- A plain assignment. -/
  | assignment
  /-- An arrow function. -/
  | arrow
  /-- An `import(…)`. -/
  | importCall
  /-- An expression that may be assigned to when the one inside may. -/
  | ascribed (simple : Bool)
  | other
  deriving Inhabited

/-- An expression. -/
structure Form where
  shape : Shape
  /-- Where it begins. -/
  start : Nat
  /-- Whether it stands in parentheses. -/
  grouped : Bool := false
  deriving Inhabited

namespace Form

/-- Whether the expression is a name or a property, in parentheses or not. -/
def isSimple (f : Form) : Bool :=
  match f.shape with
  | .name _ | .member | .ascribed true => true
  | _ => false

/-- The expression as the left side of an assignment. -/
def asTarget (f : Form) : Target :=
  if f.isSimple then {}
  else match f.shape, f.grouped with
    | .array t, false | .object t, false => t
    | _, _ => { fault := some f.start }

/-- The expression as a part of a pattern, where it may have a default. -/
def asElement (f : Form) : Target :=
  match f.shape, f.grouped with
  | .assignment, false => {}
  | _, _ => f.asTarget

/-- Whether the expression is an identifier without parentheses. -/
def isBareName (f : Form) : Bool :=
  match f.shape with
  | .name _ => !f.grouped
  | _ => false

end Form

namespace Parse

/-- Takes an expression as a pattern: its fields with an initialiser are in order then. -/
def convert (t : Target) : Parse Unit := do
  match t.fault with
  | some position => haltAt position
  | none => modify fun c => { c with covers := c.covers.filter fun p => !t.covers.contains p }

/-- An expression of no further interest that begins at a place. -/
def plain (start : Nat) : Form := ⟨.other, start, false⟩

end Parse

/-- Where a statement stands. -/
inductive Place where
  /-- In a list of statements. -/
  | listed
  /-- As the body of another statement. -/
  | single
  deriving DecidableEq

/-- The parses that call each other in a circle. -/
structure Rules where
  /-- A statement. -/
  statement : Place → Parse Unit
  /-- Expressions with commas between them. -/
  expression : Parse Form
  /-- An expression without commas. `colon` says that an arrow function's parameters may be followed
  by the type of its result. -/
  assignment : Bool → Parse Form
  /-- An operand of binary operators. -/
  unary : Parse Form
  /-- An operand that may be called. -/
  leftHand : Parse Form
  /-- A binding pattern; gives the names it binds with their places. -/
  binding : Parse (List (String × Nat))
  /-- A type. -/
  type : Parse Unit
  /-- A markup element; `last` says that what follows it is not markup. -/
  element : Bool → Parse Unit

/-- The rules of an exhausted parse. -/
def Rules.halting : Rules where
  statement _ := Parse.unexpected
  expression := Parse.unexpected
  assignment _ := Parse.unexpected
  unary := Parse.unexpected
  leftHand := Parse.unexpected
  binding := Parse.unexpected
  type := Parse.unexpected
  element _ := Parse.unexpected

end HotReload.Script
