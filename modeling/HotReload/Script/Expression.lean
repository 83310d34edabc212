import HotReload.Script.Function
import HotReload.Script.Markup

/-!
# Expressions

Operators are read as one flat row of operands: which of them binds closer decides nothing about the
imports of a source, and every row is well formed but for two mixtures that are noted.
-/

namespace HotReload.Script.Parse

/-! ### Calls -/

/-- The arguments of a call behind the opening parenthesis. -/
def arguments (g : Rules) : Parse Unit := do
  go ((← read).size + 2)
where
  /-- The arguments from here on. -/
  go : Nat → Parse Unit
    | 0 => unexpected
    | fuel + 1 => do
      if ← eat? ")" then return
      let _ ← eat? "..."
      let _ ← initialiser g
      if !(← atMark ")") then expect ","
      go fuel

/-- Whether a string literal is the only argument of a call, which a comma may follow. -/
def atOnlyLiteral : Parse Bool :=
  lookahead false do
    match (← current).cls with
    | .string _ =>
      advance
      let _ ← eat? ","
      atMark ")"
    | _ => return false

/-- Whether a string literal is the first argument of a call. -/
def atFirstLiteral : Parse Bool := do
  return (← current).cls matches .string _ &&
    (← peekIs fun t => t.isMark "," || t.isMark ")")

/-- The arguments of a call of `callee`; a call of `require` with one string literal is an
import. -/
def callArguments (g : Rules) (callee : Form) : Parse Unit := do
  expect "("
  let requires := match callee.shape with
    | .name "require" => !callee.grouped
    | _ => false
  if requires && (← atOnlyLiteral) then
    literal .require
    let _ ← eat? ","
    expect ")"
  else within (fun c => { c with decorator := false }) (arguments g)

/-- An `import` that begins an expression. -/
def importExpression (g : Rules) : Parse Form := do
  let start ← here
  expectWord "import"
  if ← eat? "." then
    if ← eatWord? "meta" then return plain start
    if !((← atWord "source") || (← atWord "defer")) then unexpected
    advance
  expect "("
  within (fun c => { c with decorator := false, inOperator := true }) do
    if ← atFirstLiteral then literal .dynamic
    else
      let _ ← g.assignment true
    if ← eat? "," then
      if !(← atMark ")") then
        let _ ← g.assignment true
        let _ ← eat? ","
    expect ")"
  return ⟨.importCall, start, false⟩

/-! ### Literals -/

/-- One element of an array literal, as a part of a pattern. -/
def arrayElement (g : Rules) : Parse Target := do
  if ← atMark "," then return {}
  let start ← here
  if ← eat? "..." then
    let form ← initialiser g
    let target := form.asTarget
    if ← atMark "," then return { target with fault := target.fault <|> some start }
    return target
  return (← initialiser g).asElement

/-- An array literal. -/
def arrayLiteral (g : Rules) : Parse Form := do
  let start ← here
  expect "["
  let target ← within (fun c => { c with decorator := false }) (go {} ((← read).size + 2))
  return ⟨.array target, start, false⟩
where
  /-- The elements from here on. -/
  go (target : Target) : Nat → Parse Target
    | 0 => unexpected
    | fuel + 1 => do
      if ← eat? "]" then return target
      if ← eat? "," then go target fuel
      else
        let part ← arrayElement g
        if !(← atMark "]") then expect ","
        go (target.and part) fuel

/-- A method of an object literal from its parameters on. -/
def objectMethod (g : Rules) (isAsync isGenerator : Bool) (place : Nat) : Parse Target := do
  functionTail g isAsync isGenerator
  return { fault := some place }

/-- One property of an object literal, as a part of a pattern. -/
def objectProperty (g : Rules) : Parse Target := do
  let start ← here
  if ← eat? "..." then
    let form ← initialiser g
    let target := form.asTarget
    if ← atMark "," then return { target with fault := target.fault <|> some start }
    return target
  if ← atAccessor then
    let isGetter ← atWord "get"
    advance
    let _ ← propertyName g
    accessorTail g isGetter
    return { fault := some start }
  let isAsync := (← atWord "async") &&
    (← peekIs fun t => !t.newline && (beginsName t || t.isMark "*"))
  if isAsync then advance
  let isGenerator ← eat? "*"
  let bare := (← atIdentifier) && !isAsync && !isGenerator
  let place ← here
  let name ← propertyName g
  if let .hash _ := name then haltAt place
  if isAsync || isGenerator || (← atMark "(") || ((← isTyped) && (← startsMark '<')) then
    objectMethod g isAsync isGenerator start
  else if bare && !(← atMark ":") then
    match name with
    | .word text _ =>
      let c ← context
      if c.awaitAllowed && text = "await" then noteAt place
      if c.yieldAllowed && text = "yield" then noteAt place
      if ← eat? "=" then
        let _ ← initialiser g
        modify fun c => { c with covers := place :: c.covers }
        return { covers := [place] }
      if !((← atMark ",") || (← atMark "\x7d")) then unexpected
      return {}
    | _ => unexpected
  else
    expect ":"
    return (← initialiser g).asElement

/-- An object literal. -/
def objectLiteral (g : Rules) : Parse Form := do
  let start ← here
  expect "\x7b"
  let target ← within (fun c => { c with decorator := false }) (go {} ((← read).size + 2))
  return ⟨.object target, start, false⟩
where
  /-- The properties from here on. -/
  go (target : Target) : Nat → Parse Target
    | 0 => unexpected
    | fuel + 1 => do
      if ← eat? "\x7d" then return target
      let part ← objectProperty g
      if !(← atMark "\x7d") then expect ","
      go (target.and part) fuel

/-- A template; `tagged` says that its escapes may be bad. -/
def templateLiteral (g : Rules) (tagged : Bool) : Parse Unit := do
  let place ← here
  let sound ← within (fun c => { c with inOperator := true, decorator := false }) <|
    templateRest do
      let _ ← g.expression
  if !sound && !tagged then noteAt place

/-- A regular expression. -/
def regexLiteral : Parse Unit := do
  retake Lexer.regexToken Lexer.keeps_regexToken
  advance

/-- An expression in parentheses. -/
def groupedExpression (g : Rules) : Parse Form := do
  let start ← here
  expect "("
  if ← atMark ")" then haltAt start
  let form ← within (fun c => { c with inOperator := true, decorator := false }) g.expression
  if ← atMark "," then unexpected
  expect ")"
  return { form with start, grouped := true }

/-! ### Operands -/

/-- The words that begin an operand by themselves. -/
def valueWords : List String := ["this", "null", "true", "false"]

/-- An operand without what may follow it. -/
def primary (g : Rules) : Parse Form := do
  let t ← current
  let start := t.start
  match t.cls with
  | .string _ | .number => advance; return plain start
  | .template _ _ => templateLiteral g false; return plain start
  | .mark "/" | .mark "/=" => regexLiteral; return plain start
  | .mark "[" => arrayLiteral g
  | .mark "\x7b" => objectLiteral g
  | .mark "(" => groupedExpression g
  | .mark "@" =>
    let _ ← decorators g
    let _ ← classTail g
    return plain start
  | .word text escaped =>
    if ← atAsyncFunction then
      let _ ← function g .expression
      return plain start
    if isReserved text then
      if escaped then unexpected
      if valueWords.contains text then advance; return plain start
      match text with
      | "function" =>
        let _ ← function g .expression
        return plain start
      | "class" =>
        let _ ← classTail g
        return plain start
      | "super" =>
        advance
        if !((← atMark ".") || (← atMark "[") || (← atMark "(")) then noteAt start
        return plain start
      | "import" => importExpression g
      | _ => unexpected
    else
      checkIdentifier
      advance
      return ⟨.name text, start, false⟩
  | _ => unexpected

/-- The name of a property behind a dot. -/
def memberName : Parse Unit := do
  match (← current).cls with
  | .word _ _ | .hashWord _ => advance
  | _ => unexpected

/-- A computed property in its brackets. -/
def computedMember (g : Rules) : Parse Unit := do
  expect "["
  let _ ← within (fun c => { c with inOperator := true }) g.expression
  expect "]"

/-- Where a chain of properties and calls stands. -/
structure Chain where
  form : Form
  /-- Whether a link may be missing. -/
  optional : Bool := false
  /-- Whether calls may follow. -/
  calls : Bool := true
  /-- Whether nothing more follows. -/
  done : Bool := false

/-- One link of a chain. -/
def link (g : Rules) (chain : Chain) : Parse Chain := do
  let start := chain.form.start
  let go := fun (shape : Shape) => pure { chain with form := ⟨shape, start, false⟩ }
  let property := if chain.optional then Shape.other else .member
  let t ← current
  match t.cls with
  | .mark "." =>
    advance
    memberName
    go property
  | .mark "[" =>
    if (← context).decorator then return { chain with done := true }
    computedMember g
    go property
  | .mark "?." =>
    if !chain.calls then note
    advance
    match (← current).cls with
    | .mark "(" =>
      callArguments g chain.form
    | .mark "[" => computedMember g
    | .mark "<" | .mark "<<" =>
      typeArguments? g
      callArguments g chain.form
    | .template _ _ =>
      note
      templateLiteral g true
    | _ => memberName
    return { chain with form := plain start, optional := true }
  | .mark "(" =>
    if !chain.calls then return { chain with done := true }
    callArguments g chain.form
    go .other
  | .template _ _ =>
    if chain.optional then note
    templateLiteral g true
    go .other
  | .mark "!" =>
    if (← isTyped) && !t.newline then
      advance
      go (.ascribed chain.form.isSimple)
    else return { chain with done := true }
  | .mark "<" | .mark "<<" =>
    if ← isTyped then
      match ← attempt (argumentsInExpression g) with
      | some () =>
        if ← atMark "(" then
          if chain.calls then
            callArguments g chain.form
            go .other
          else return { chain with done := true }
        else match (← current).cls with
          | .template _ _ => return chain
          | _ => go .other
      | none => return { chain with done := true }
    else return { chain with done := true }
  | _ => return { chain with done := true }

/-- A chain of properties and calls from its first operand on. -/
def links (g : Rules) (chain : Chain) : Nat → Parse Chain
  | 0 => unexpected
  | fuel + 1 => do
    let chain ← link g chain
    if chain.done then return chain else links g chain fuel

/-- What is called by `new`, with its arguments; `fuel` bounds how many `new` follow each other. -/
def newExpression (g : Rules) : Nat → Parse Form
  | 0 => unexpected
  | fuel + 1 => do
    let start ← here
    expectWord "new"
    if ← eat? "." then
      expectWord "target"
      return plain start
    let isImport ← atWord "import"
    let head ← if ← atWord "new" then newExpression g fuel else primary g
    if isImport then
      if let .importCall := head.shape then noteAt start
    let _ ← links g { form := head, calls := false } ((← read).size + 2)
    if ← eat? "(" then
      within (fun c => { c with decorator := false }) (arguments g)
    return plain start

/-- An operand that may be called. -/
def leftHand (g : Rules) : Parse Form := do
  let bound := (← read).size + 2
  let head ← if ← atWord "new" then newExpression g bound else primary g
  let chain ← links g { form := head } bound
  if chain.optional then return plain head.start else return chain.form

/-! ### Operators -/

/-- An operand with the increments around it. -/
def update (g : Rules) : Parse Form := do
  let start ← here
  if (← atMark "++") || (← atMark "--") then
    advance
    let operand ← g.unary
    if !operand.isSimple then haltAt operand.start
    return plain start
  if (← dialect).markup && (← startsMark '<') then
    g.element true
    return plain start
  let operand ← leftHand g
  if ((← atMark "++") || (← atMark "--")) && !(← onNewLine) then
    if !operand.isSimple then haltAt operand.start
    advance
    return plain start
  return operand

/-- Whether `await` begins an operator here. -/
def atAwait : Parse Bool := do
  if ← atWord "await" then
    if (← context).awaitAllowed then return true
    peekIs fun t => !t.newline &&
      match t.cls with
      | .word text false => !(["in", "of", "instanceof", "as", "satisfies"].contains text)
      | .word _ true | .string _ | .number => true
      | _ => false
  else return false

/-- An operand of binary operators. -/
def unary (g : Rules) : Parse Form := do
  let start ← here
  let t ← current
  match t.cls with
  | .mark text =>
    if ["+", "-", "!", "~"].contains text then
      advance
      let _ ← g.unary
      if ← atMark "**" then note
      return plain start
    else if text = "<" && (← isTyped) && !(← dialect).markup then
      advance
      if ← atWord "const" then advance else g.type
      expectAngle
      let operand ← g.unary
      return ⟨.ascribed operand.isSimple, start, false⟩
    else update g
  | .word text false =>
    if ["typeof", "void", "delete"].contains text then
      advance
      let _ ← g.unary
      if ← atMark "**" then note
      return plain start
    else if ← atAwait then
      if !(← context).awaitAllowed then note
      advance
      let _ ← within (fun c => { c with awaitAllowed := true }) g.unary
      if ← atMark "**" then note
      return plain start
    else update g
  | _ => update g

/-- The logical operators of a row. -/
structure Row where
  form : Form
  coalesce : Bool := false
  logical : Bool := false

/-- An operand in a row of operators; a private name may stand before `in`. -/
def operand (g : Rules) : Parse Form := do
  match (← current).cls with
  | .hashWord _ =>
    let start ← here
    advance
    if !((← atWord "in") && (← context).inOperator) then unexpected
    return plain start
  | _ => unary g

/-- The operators and operands that follow. -/
def row (g : Rules) (r : Row) : Nat → Parse Row
  | 0 => unexpected
  | fuel + 1 => do
    let t ← current
    let start := r.form.start
    if !isBinaryOperator t then return r
    match t.cls with
    | .word "in" _ =>
      if !(← context).inOperator then return r
      advance
      let _ ← operand g
      row g { r with form := plain start } fuel
    | .word "instanceof" _ =>
      advance
      let _ ← operand g
      row g { r with form := plain start } fuel
    | .word _ _ =>
      if t.newline then return r
      if !(← isTyped) then note
      advance
      if ← atWord "const" then advance
      else within (fun c => { c with noConditional := false }) g.type
      row g { r with form := ⟨.ascribed r.form.isSimple, start, false⟩ } fuel
    | .mark text =>
      advance
      let _ ← operand g
      let r := { r with
        form := plain start
        coalesce := r.coalesce || text = "??"
        logical := r.logical || text = "||" || text = "&&" }
      row g r fuel
    | _ => return r

/-- Operands with operators between them. -/
def binary (g : Rules) : Parse Form := do
  let first ← operand g
  let r ← row g { form := first } ((← read).size + 2)
  if r.coalesce && r.logical then noteAt first.start
  return r.form

/-! ### Arrow functions -/

/-- Whether a parenthesis or an angle begins the parameters of an arrow function. -/
inductive Likely where
  | yes
  | no
  | maybe
  deriving DecidableEq

/-- The words that may stand before a parameter although they are identifiers. -/
def isParameterWord (text : String) : Bool := parameterModifiers.contains text

/-- Whether parameters begin at an opening parenthesis, as far as the tokens behind it tell. -/
def likelyParameters : Parse Likely := do
  expect "("
  let t ← current
  match t.cls with
  | .mark ")" =>
    advance
    return if (← atMark "=>") || (← atMark ":") || (← atMark "\x7b") then .yes else .no
  | .mark "[" | .mark "\x7b" | .mark "@" => return .maybe
  | .mark "..." =>
    advance
    match (← current).cls with
    | .word text _ => return if isReserved text then .no else .yes
    | .mark "[" | .mark "\x7b" => return .maybe
    | _ => return .no
  | .word text _ =>
    advance
    if isParameterWord text && (← atIdentifier) && !(← atWord "as") && !(← atWord "satisfies") then
      return .yes
    if isReserved text && text ≠ "this" then return .no
    if ← atMark ":" then return .yes
    if ← atMark "?" then
      advance
      let next ← current
      return if [":", ",", "=", ")"].any next.isMark then .yes else .no
    let next ← current
    return if [",", "=", ")"].any next.isMark then .maybe else .no
  | _ => return .no

/-- Whether parameters begin at an opening angle. -/
def likelyGeneric : Parse Likely := do
  splitMark
  expect "<"
  if !((← atIdentifier) || (← atWord "const")) then return .no
  if (← dialect).markup then
    let _ ← eatWord? "const"
    advance
    if ← eatWord? "extends" then
      return if (← atMark "=") || (← startsMark '>') || (← atMark "/") then .no else .yes
    return if (← atMark ",") || (← atMark "=") then .yes else .no
  return .maybe

/-- Whether an arrow function with parameters in parentheses begins here. -/
def likelyArrow : Parse Likely :=
  lookahead .no do
    if (← atWord "async") then
      if ← peekIs fun t => t.newline || !(t.isMark "(" || t.isMark "<") then return .no
      advance
    if ← atMark "(" then likelyParameters
    else if (← isTyped) && (← atMark "<") then likelyGeneric
    else return .no

/-- The head of an arrow function with parameters in parentheses: whether it is asynchronous, and
whether the type of its result is given. -/
def arrowHead (g : Rules) : Parse (Bool × Bool) := do
  let isAsync ← eatWord? "async"
  let outer ← context
  within (fun c => { c with awaitAllowed := isAsync || outer.awaitAllowed }) do
    typeParameters? g
    parameters g
    let typed := (← isTyped) && (← atMark ":")
    resultAnnotation g
    return (isAsync, typed)

/-- The body of an arrow function from the arrow on. -/
def arrowBody (g : Rules) (isAsync colon : Bool) : Parse Unit := do
  if (← atMark "=>") && (← onNewLine) then note
  expect "=>"
  let outer ← context
  within (fun c => { c with awaitAllowed := isAsync || outer.awaitAllowed }) do
    if ← atMark "\x7b" then
      within (fun c => { c with inOperator := true, decorator := false }) (functionBody g)
    else
      let _ ← g.assignment colon

/-- An arrow function whose parameters can be nothing else. -/
def certainArrow (g : Rules) : Parse Unit := do
  let (isAsync, _) ← arrowHead g
  arrowBody g isAsync true

/-- An arrow function, where the tokens turn out to be one. -/
def possibleArrow (g : Rules) (colon : Bool) : Parse Bool := do
  let place ← here
  if (← look fun c => c.noArrow).contains place then return false
  let isArrow ← orUndo do
    match ← attempt (arrowHead g) with
    | none => return false
    | some (isAsync, typed) =>
      if !((← atMark "=>") || (← atMark "\x7b")) then return false
      else
        arrowBody g isAsync colon
        return !(typed && !colon) || (← atMark ":")
  if !isArrow then modify fun c => { c with noArrow := place :: c.noArrow }
  return isArrow

/-- Whether an asynchronous arrow function with a bare parameter begins here. -/
def atAsyncBareArrow : Parse Bool :=
  lookahead false do
    expectWord "async"
    if (← onNewLine) || !(← atIdentifier) then return false
    advance
    atMark "=>"

/-! ### Assignments -/

/-- The operators that assign. -/
def assignmentMarks : List String :=
  ["=", "+=", "-=", "*=", "/=", "%=", "**=", "<<=", ">>=", ">>>=", "&=", "|=", "^=", "&&=", "||=",
   "??="]

/-- Whether `yield` begins an operator here. -/
def atYield : Parse Bool := do
  if ← atWord "yield" then
    if (← context).yieldAllowed then return true
    peekIs fun t => !t.newline &&
      match t.cls with
      | .word text _ => !(["in", "of", "instanceof", "as", "satisfies"].contains text)
      | .string _ | .number => true
      | _ => false
  else return false

/-- What a generator gives out. -/
def yieldExpression (g : Rules) : Parse Unit := do
  if !(← context).yieldAllowed then note
  advance
  if ← onNewLine then return
  let delegate ← eat? "*"
  let t ← current
  let ends := t.cls = .eof || t.isWord "in" ||
    [";", "\x7d", "]", ")", ":", ","].any t.isMark
  if delegate || !ends then
    let _ ← g.assignment true

/-- The rest of a conditional expression behind its condition. -/
def conditionalRest (g : Rules) (lhs : Form) (colon : Bool) : Parse Form := do
  if ← eat? "?" then
    let _ ← within (fun c => { c with inOperator := true }) (g.assignment false)
    expect ":"
    let _ ← g.assignment colon
    return plain lhs.start
  return lhs

/-- An expression without commas. -/
def assignment (g : Rules) (colon : Bool) : Parse Form := do
  let start ← here
  if ← atYield then
    yieldExpression g
    return plain start
  match ← likelyArrow with
  | .yes =>
    certainArrow g
    return ⟨.arrow, start, false⟩
  | .maybe =>
    if ← possibleArrow g colon then return ⟨.arrow, start, false⟩
    else afterArrow
  | .no => afterArrow
where
  /-- The expression, where it is no arrow function with parameters in parentheses. -/
  afterArrow : Parse Form := do
    let start ← here
    if ← atAsyncBareArrow then
      advance
      let _ ← within (fun c => { c with awaitAllowed := true }) boundName
      arrowBody g true colon
      return ⟨.arrow, start, false⟩
    let lhs ← binary g
    if lhs.isBareName && (← atMark "=>") then
      arrowBody g false colon
      return ⟨.arrow, start, false⟩
    match (← current).cls with
    | .mark text =>
      if assignmentMarks.contains text then
        if text = "=" then convert lhs.asTarget
        else if !lhs.isSimple then haltAt lhs.start
        advance
        let _ ← g.assignment colon
        return ⟨if text = "=" then .assignment else .other, start, false⟩
      else conditionalRest g lhs colon
    | _ => conditionalRest g lhs colon

/-- Expressions with commas between them. -/
def expression (g : Rules) : Parse Form := do
  let first ← g.assignment true
  if ← atMark "," then
    repeatWhile do
      if ← eat? "," then
        let _ ← g.assignment true
        return true
      else return false
    return plain first.start
  return first

end HotReload.Script.Parse
