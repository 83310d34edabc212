import HotReload.Script.Types

/-!
# Functions and classes
-/

namespace HotReload.Script.Parse

/-! ### Functions -/

/-- Statements in braces. -/
def block (g : Rules) : Parse Unit := do
  expect "\x7b"
  repeatUntil "\x7d" (g.statement .listed)

/-- The body of a function. -/
def functionBody (g : Rules) : Parse Unit :=
  within (fun c => { c with returnAllowed := true }) (block g)

/-- The surroundings inside a function. -/
def insideFunction (isAsync isGenerator : Bool) (c : Context) : Context :=
  { c with
    inOperator := true, awaitAllowed := isAsync, yieldAllowed := isGenerator, decorator := false
    noConditional := false }

/-- A function from its parameters on. Typed sources may leave the body out. -/
def functionTail (g : Rules) (isAsync isGenerator : Bool) : Parse Unit := do
  let hasBody ← within (insideFunction isAsync isGenerator) do
    typeParameters? g
    parameters g
    resultAnnotation g
    if ← atMark "\x7b" then
      functionBody g
      return true
    else return false
  if !hasBody then
    if ← isTyped then endStatement
    else
      noteAt (← lastEnd)
      unexpected

/-- What kind of function a name belongs to. -/
inductive FunctionRole where
  /-- A declaration, which has to have a name. -/
  | declaration
  /-- The default export, which may do without. -/
  | defaultExport
  | expression
  deriving DecidableEq

/-- The name of a function, if it has one. -/
def functionName (role : FunctionRole) (isAsync isGenerator : Bool) : Parse (Option Bound) := do
  if ← atIdentifier then
    if role = .expression then
      return some (← within (insideFunction isAsync isGenerator) boundName)
    else return some (← boundName)
  else
    if role = .declaration then
      if ← atMark "(" then note
      else unexpected
    return none

/-- A function from `async` or `function` on; gives its name and whether it is plain, that is
neither asynchronous nor a generator. -/
def function (g : Rules) (role : FunctionRole) : Parse (Option Bound × Bool) := do
  let isAsync ← eatWord? "async"
  expectWord "function"
  let isGenerator ← eat? "*"
  let name ← functionName role isAsync isGenerator
  functionTail g isAsync isGenerator
  return (name, !isAsync && !isGenerator)

/-- Whether an asynchronous function begins here. -/
def atAsyncFunction : Parse Bool := do
  return (← atWord "async") && (← peekIs fun t => t.isWord "function" && !t.newline)

/-! ### Members of classes -/

/-- The words that may stand before a member. -/
def memberModifiers : List String :=
  ["static", "accessor", "async", "public", "private", "protected", "readonly", "declare",
   "abstract", "override"]

/-- Whether a token may follow a modifier. -/
def followsModifier (t : Token) : Bool := beginsName t || t.isMark "*"

/-- The modifiers before a member. The words that only typed sources have are noted elsewhere. -/
def modifiers : Parse (List String) := do
  go [] ((← read).size + 2)
where
  /-- The modifiers from here on. -/
  go (found : List String) : Nat → Parse (List String)
    | 0 => unexpected
    | fuel + 1 => do
      match (← current).cls with
      | .word text false =>
        let follows ← peekIs fun t => followsModifier t && (text = "static" || !t.newline)
        if memberModifiers.contains text && follows then
          if !(← isTyped) && !(["static", "accessor", "async"].contains text) then note
          advance
          go (text :: found) fuel
        else return found.reverse
      | _ => return found.reverse

/-- Whether a name is that of the constructor. -/
def PropertyName.isConstructor : PropertyName → Bool
  | .word text _ => text = "constructor"
  | .string value => value = "constructor"
  | _ => false

/-- Whether a name is that of the prototype. -/
def PropertyName.isPrototype : PropertyName → Bool
  | .word text _ => text = "prototype"
  | .string value => value = "prototype"
  | _ => false

/-- Whether a member named `get` or `set` is an accessor: a name follows it. -/
def atAccessor : Parse Bool := do
  return ((← atWord "get") || (← atWord "set")) && (← peekIs beginsName)

/-- The parameters of a getter or setter are checked by their number. -/
def accessorTail (g : Rules) (isGetter : Bool) : Parse Unit := do
  let place ← here
  let empty ← peekIs fun t => t.isMark ")"
  functionTail g false false
  if isGetter ≠ empty then
    if isGetter then
      if !(← isTyped) then noteAt place
    else noteAt place

/-- One member of a class. -/
def classMember (g : Rules) : Parse Unit := do
  if ← eat? ";" then return
  let _ ← decorators g
  let typed ← isTyped
  let found ← modifiers
  let isStatic := found.contains "static"
  if (← atWord "static") && (← peekIs fun t => t.isMark "\x7b") then
    advance
    within (fun c => { c with awaitAllowed := true, yieldAllowed := false, returnAllowed := false })
      (block g)
  else if typed && (← atIndexSignature) then
    indexSignature g
    endMember
  else if ← atAccessor then
    let isGetter ← atWord "get"
    advance
    let place ← here
    let name ← propertyName g
    if !isStatic && name.isConstructor then noteAt place
    accessorTail g isGetter
  else
    let isGenerator ← eat? "*"
    let place ← here
    let name ← propertyName g
    if let .hash "constructor" := name then noteAt place
    if typed && ((← atMark "?") || ((← atMark "!") && !(← onNewLine))) then advance
    if isGenerator || (← atMark "(") || (typed && (← startsMark '<')) then
      let isAsync := found.contains "async"
      if !isStatic && name.isConstructor && (isAsync || isGenerator) then noteAt place
      if isStatic && name.isPrototype then noteAt place
      functionTail g isAsync isGenerator
    else
      if name.isConstructor || (isStatic && name.isPrototype) || found.contains "async" then
        noteAt place
      annotation g
      if ← eat? "=" then
        let _ ← within (fun c =>
          { c with inOperator := true, awaitAllowed := false, yieldAllowed := false })
          (g.assignment true)
      endStatement

/-! ### Classes -/

/-- What a class extends and implements. -/
def heritage (g : Rules) : Parse Unit :=
  repeatWhile do
    if ← eatWord? "extends" then
      repeatWhile do
        let _ ← g.leftHand
        typeArguments? g
        eat? ","
      return true
    else if (← isTyped) && (← eatWord? "implements") then
      repeatWhile do
        entityName
        typeArguments? g
        eat? ","
      return true
    else return false

/-- A class from `class` on; gives its name. -/
def classTail (g : Rules) : Parse (Option Bound) := do
  expectWord "class"
  let name ←
    if (← atIdentifier) && !(← atWord "implements") then pure (some (← boundName)) else pure none
  within (fun c => { c with decorator := false, inOperator := true }) do
    typeParameters? g
    heritage g
    expect "\x7b"
    repeatUntil "\x7d" (classMember g)
  return name

end HotReload.Script.Parse
