import HotReload.Script.Declaration

/-!
# Statements
-/

namespace HotReload.Script.Parse

/-- An expression in parentheses, as statements have it. -/
def condition (g : Rules) : Parse Unit := do
  expect "("
  let _ ← within (fun c => { c with inOperator := true }) g.expression
  expect ")"

/-- Notes a declaration that stands where only a statement may. -/
def noteSingle (place : Place) (position : Nat) : Parse Unit := do
  if place = .single then noteAt position

/-! ### Loops -/

/-- Whether `let` begins a declaration in the head of a loop. -/
def atLoopLet : Parse Bool := do
  return (← atWord "let") &&
    (← peekIs fun t =>
      match t.cls with
      | .word text _ => (!isReserved text && text ≠ "of") || text = "yield"
      | .mark text => ["[", "\x7b"].contains text
      | _ => false)

/-- Whether `using` begins a declaration in the head of a loop. -/
def atLoopUsing : Parse Bool := do
  return (← atWord "using") &&
    (← peekIs fun t => !t.newline && (t.word?.map fun w => !isReserved w && w ≠ "of").getD false)

/-- The rest of a loop head behind its first semicolon's left side. -/
def loopRest (g : Rules) : Parse Unit := do
  expect ";"
  if !(← atMark ";") then
    let _ ← g.expression
  expect ";"
  if !(← atMark ")") then
    let _ ← g.expression

/-- The rest of a loop head behind its variable, where it goes over the keys or items of a value. -/
def loopOver? (g : Rules) : Parse Bool := do
  if ← eatWord? "in" then
    let _ ← g.expression
    return true
  else if ← eatWord? "of" then
    let _ ← g.assignment true
    return true
  else return false

/-- The head of a `for` loop behind its parenthesis. -/
def loopHead (g : Rules) (isAwait : Bool) : Parse Unit := do
  if ← atMark ";" then return ← loopRest g
  let word ←
    if ← atWord "var" then pure (some VariableWord.var)
    else if ← atWord "const" then pure (some .const)
    else if ← atLoopLet then pure (some .let_)
    else if ← atLoopUsing then pure (some .using)
    else if (← atWord "await") && (← peekIs fun t => t.isWord "using") then
      advance
      pure (some .using)
    else pure none
  match word with
  | some word =>
    advance
    let (_, missing) ← within (fun c => { c with inOperator := false }) (variableList g word)
    if !(← loopOver? g) then
      if let some position := missing then noteAt position
      loopRest g
  | none =>
    let start ← here
    let letOf := (← atWord "let") && (← peekIs fun t => t.isWord "of")
    let asyncOf := (← atWord "async") && (← peekIs fun t => t.isWord "of")
    let form ← within (fun c => { c with inOperator := false }) g.expression
    if (← atWord "in") || (← atWord "of") then
      if (← atWord "of") && (letOf || (asyncOf && !isAwait)) then noteAt start
      convert form.asTarget
      let _ ← loopOver? g
    else loopRest g

/-- A `for` loop. -/
def forStatement (g : Rules) : Parse Unit := do
  expectWord "for"
  let isAwait ← atWord "await"
  if isAwait then
    if !(← context).awaitAllowed then note
    advance
  expect "("
  loopHead g isAwait
  expect ")"
  g.statement .single

/-! ### Choices and exits -/

/-- One branch of a `switch`. -/
def switchCase (g : Rules) : Parse Unit := do
  if ← eatWord? "default" then pure ()
  else
    expectWord "case"
    let _ ← g.expression
  expect ":"
  repeatWhile do
    if (← atWord "case") || (← atWord "default") || (← atMark "\x7d") then return false
    if ← atEnd then unexpected
    g.statement .listed
    return true

/-- A `try` statement. -/
def tryStatement (g : Rules) : Parse Unit := do
  expectWord "try"
  block g
  let stop ← lastEnd
  let caught ← if ← eatWord? "catch" then
      if ← eat? "(" then
        let _ ← g.binding
        annotation g
        expect ")"
      block g
      pure true
    else pure false
  if ← eatWord? "finally" then block g
  else if !caught then noteAt stop

/-- A statement that leaves a loop or a block. -/
def jumpStatement : Parse Unit := do
  advance
  if !(← canEndStatement) then
    let _ ← identifier
  endStatement

/-- A `return` statement. -/
def returnStatement (g : Rules) : Parse Unit := do
  let start ← here
  advance
  if !(← canEndStatement) then
    let _ ← within (fun c => { c with inOperator := true }) g.expression
  endStatement
  if !(← context).returnAllowed then noteAt start

/-! ### Words that may also be names -/

/-- An expression as a statement, or a label with its statement. -/
def expressionStatement (g : Rules) : Parse Unit := do
  let form ← g.expression
  if form.isBareName && (← atMark ":") then
    advance
    g.statement .single
  else endStatement

/-- What begins with `let`: a declaration, or an expression where `let` is a name. -/
def letStatement (g : Rules) (place : Place) : Parse Unit := do
  let start ← here
  let next := (← peek?).getD default
  let isName := match next.cls with
    | .mark text =>
      assignmentMarks.contains text || [".", "(", ";", ",", ")", "?.", ":", "=>"].contains text ||
        (isBinaryOperator next && text ≠ "[")
    | .word text false => ["in", "instanceof"].contains text
    | .eof => true
    | _ => false
  if isName || (place = .single && !next.isMark "[" ) then expressionStatement g
  else
    noteSingle place start
    advance
    let _ ← variableStatement g .let_

/-- Whether `using` begins a declaration. -/
def atUsing : Parse Bool := do
  return (← atWord "using") &&
    (← peekIs fun t => !t.newline && (t.word?.map fun w => !isReserved w).getD false)

/-- Whether `await using` begins a declaration. -/
def atAwaitUsing : Parse Bool :=
  lookahead false do
    expectWord "await"
    if ← onNewLine then return false
    expectWord "using"
    return !(← onNewLine) && (← atIdentifier)

/-- A statement that begins with a reserved word. -/
def wordStatement (g : Rules) (place : Place) (word : String) (start : Nat) : Parse Unit := do
  match word with
  | "if" =>
    advance
    condition g
    g.statement .single
    if ← eatWord? "else" then g.statement .single
  | "do" =>
    advance
    g.statement .single
    expectWord "while"
    condition g
    let _ ← eat? ";"
  | "while" | "with" =>
    advance
    condition g
    g.statement .single
  | "for" => forStatement g
  | "continue" | "break" => jumpStatement
  | "return" => returnStatement g
  | "switch" =>
    advance
    condition g
    expect "\x7b"
    repeatUntil "\x7d" (switchCase g)
  | "throw" =>
    advance
    if ← onNewLine then noteAt (← lastEnd)
    let _ ← within (fun c => { c with inOperator := true }) g.expression
    endStatement
  | "try" => tryStatement g
  | "debugger" =>
    advance
    endStatement
  | "var" =>
    advance
    let _ ← variableStatement g .var
  | "const" =>
    noteSingle place start
    let _ ← declaration g 2
  | "function" =>
    let (_, isPlain) ← function g .declaration
    if !isPlain then noteSingle place start
  | "class" =>
    let name ← classTail g
    if name.isNone then noteAt start
    noteSingle place start
  | "import" =>
    if ← peekIs fun t => t.isMark "(" || t.isMark "." then expressionStatement g
    else importDeclaration g
  | "export" => exportDeclaration g
  | "enum" =>
    if ← isTyped then
      let _ ← declaration g 2
    else unexpected
  | _ => expressionStatement g

/-- Whether a word that is not reserved may start a declaration that only typed sources have. -/
def opensTyped (word : String) : Bool :=
  ["interface", "type", "module", "namespace", "global", "abstract", "declare"].contains word

/-- A statement. -/
def statement (g : Rules) (place : Place) : Parse Unit := do
  let t ← current
  match t.cls with
  | .mark "\x7b" => block g
  | .mark ";" => advance
  | .mark "@" =>
    let _ ← decorators g
    if ← atWord "export" then exportDeclaration g
    else if ← atWord "class" then wordStatement g place "class" t.start
    else if (← isTyped) && (← atTypedDeclaration) then
      let _ ← declaration g ((← read).size + 2)
    else unexpected
  | .word text false =>
    if isReserved text then wordStatement g place text t.start
    else if text = "let" then letStatement g place
    else if ← atUsing then
      noteSingle place t.start
      advance
      let _ ← variableStatement g .using
    else if ← atAwaitUsing then
      noteSingle place t.start
      advance
      advance
      let _ ← variableStatement g .using
    else if ← atAsyncFunction then
      let _ ← function g .declaration
      noteSingle place t.start
    else if opensTyped text && (← atTypedDeclaration) then
      let _ ← declaration g ((← read).size + 2)
    else expressionStatement g
  | _ => expressionStatement g

end HotReload.Script.Parse
