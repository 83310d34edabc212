import HotReload.Script.Binding

/-!
# Types

Types are read for their extent alone: nothing in a type is an import. Only the computed names of
members hold expressions.
-/

namespace HotReload.Script.Parse

/-! ### Arguments and parameters -/

/-- The arguments of a generic type. -/
def typeArgumentList (g : Rules) : Parse Unit := do
  splitMark
  expect "<"
  if ← startsMark '>' then unexpected
  repeatWhile do
    within (fun c => { c with noConditional := false }) g.type
    eat? ","

/-- The arguments of a generic type in their angles. -/
def typeArguments (g : Rules) : Parse Unit := do
  typeArgumentList g
  expectAngle

/-- The arguments of a generic type, where the current token begins them. -/
def typeArguments? (g : Rules) : Parse Unit := do
  if (← isTyped) && (← startsMark '<') && !(← atMark "<=") && !(← atMark "<<=") then typeArguments g

/-- One parameter of a generic declaration. -/
def typeParameter (g : Rules) : Parse Unit := do
  repeatWhile do
    if (← atWord "const") || (← atWord "in") ||
        ((← atWord "out") && (← peekIs fun t => t.word?.isSome && !t.isWord "extends")) then
      advance
      return true
    else return false
  let _ ← identifier
  if ← eatWord? "extends" then g.type
  if ← eat? "=" then g.type

/-- The parameters of a generic declaration, where the current token begins them. -/
def typeParameters? (g : Rules) : Parse Unit := do
  if (← isTyped) && (← startsMark '<') then
    splitMark
    expect "<"
    if ← startsMark '>' then unexpected
    repeatWhile do
      typeParameter g
      if ← eat? "," then return !(← startsMark '>') else return false
    expectAngle

/-! ### Names -/

/-- Names with dots between them. -/
def entityName : Parse Unit := do
  let _ ← anyWord
  repeatWhile do
    if ← atMark "." then
      advance
      let _ ← anyWord
      return true
    else return false

/-- Whether the current token begins a bracketed index of a type on the same line. -/
def atIndex : Parse Bool := do return (← atMark "[") && !(← onNewLine)

/-! ### Results of functions -/

/-- The type of a result, where it may also be a claim on an argument. -/
def resultType (g : Rules) : Parse Unit := do
  if (← atWord "asserts") && (← peekIs fun t => !t.newline && t.word?.isSome && !t.isWord "is") then
    advance
    let _ ← anyWord
    if (← atWord "is") && !(← onNewLine) then
      advance
      g.type
  else if (← atAnyWord) && (← peekIs fun t => t.isWord "is" && !t.newline) then
    advance
    advance
    g.type
  else g.type

/-- The type of a result behind a colon, where one is current. -/
def resultAnnotation (g : Rules) : Parse Unit := do
  if (← isTyped) && (← atMark ":") then
    advance
    within (fun c => { c with noConditional := false }) (resultType g)

/-- A function type from its parameters on. -/
def functionType (g : Rules) : Parse Unit := do
  typeParameters? g
  parameters g
  expect "=>"
  resultType g

/-- Whether a parenthesis begins the parameters of a function type. -/
def beginsFunctionType (g : Rules) : Parse Bool :=
  lookahead false do
    advance
    if (← atMark ")") || (← atMark "...") then return true
    skipParameterModifiers
    if (← atMark "[") || (← atMark "\x7b") then
      let _ ← g.binding
    else if ← atAnyWord then advance
    else return false
    if (← atMark ":") || (← atMark ",") || (← atMark "?") || (← atMark "=") then return true
    if ← eat? ")" then atMark "=>" else return false

/-! ### Members -/

/-- What ends a member: a semicolon, a comma, or what may end a statement. -/
def endMember : Parse Unit := do
  if ← eat? "," then return
  if ← eat? ";" then return
  if ← canEndStatement then return
  haltAt (← lastEnd)

/-- A signature from its parameters on. -/
def signature (g : Rules) : Parse Unit := do
  typeParameters? g
  parameters g
  resultAnnotation g

/-- Whether a bracket begins an index signature: a name and a colon stand in it. -/
def atIndexSignature : Parse Bool :=
  lookahead false do
    expect "["
    let _ ← anyWord
    atMark ":"

/-- An index signature. -/
def indexSignature (g : Rules) : Parse Unit := do
  expect "["
  let _ ← identifier
  annotation g
  expect "]"
  annotation g

/-- Whether a word is a modifier here: a name follows it. -/
def isModifierHere : Parse Bool :=
  peekIs beginsName

/-- One member of an object type. -/
def member (g : Rules) : Parse Unit := do
  if (← atMark "(") || (← startsMark '<') then
    signature g
  else if (← atWord "new") && (← peekIs fun t => t.isMark "(" || t.isMark "<") then
    advance
    signature g
  else
    repeatWhile do
      match (← current).cls with
      | .word text false =>
        if ["readonly", "public", "private", "protected", "static", "declare", "abstract",
            "override"].contains text && (← isModifierHere) then
          advance
          return true
        else return false
      | _ => return false
    if ← atIndexSignature then indexSignature g
    else
      if ((← atWord "get") || (← atWord "set")) && (← isModifierHere) then advance
      let _ ← propertyName g
      let _ ← eat? "?"
      if (← atMark "(") || (← startsMark '<') then signature g
      else annotation g
  endMember

/-- The members of an object type in their braces. -/
def members (g : Rules) : Parse Unit := do
  expect "\x7b"
  repeatUntil "\x7d" (member g)

/-- Whether a brace begins a mapped type: a name and `in` stand in its first bracket. -/
def atMappedType : Parse Bool :=
  lookahead false do
    expect "\x7b"
    if (← atMark "+") || (← atMark "-") then
      advance
      return ← atWord "readonly"
    let _ ← eatWord? "readonly"
    expect "["
    let _ ← identifier
    atWord "in"

/-- A mapped type. -/
def mappedType (g : Rules) : Parse Unit := do
  expect "\x7b"
  if (← atMark "+") || (← atMark "-") then
    advance
    expectWord "readonly"
  else
    let _ ← eatWord? "readonly"
  expect "["
  let _ ← identifier
  expectWord "in"
  g.type
  if ← eatWord? "as" then g.type
  expect "]"
  if (← atMark "+") || (← atMark "-") then
    advance
    expect "?"
  else
    let _ ← eat? "?"
  annotation g
  let _ ← eat? ";"
  expect "\x7d"

/-! ### Operands -/

/-- One element of a tuple type. -/
def tupleElement (g : Rules) : Parse Unit := do
  let _ ← eat? "..."
  if (← atAnyWord) && (← peekIs fun t => t.isMark ":" || t.isMark "?") &&
      (← lookahead false do
        advance
        let _ ← eat? "?"
        atMark ":") then
    advance
    let _ ← eat? "?"
    expect ":"
    g.type
  else
    g.type
  let _ ← eat? "?"

/-- An imported type. -/
def importType (g : Rules) : Parse Unit := do
  expectWord "import"
  expect "("
  g.type
  if ← eat? "," then
    if !(← atMark ")") then
      let _ ← g.assignment true
      let _ ← eat? ","
  expect ")"
  if ← eat? "." then entityName
  if !(← onNewLine) then typeArguments? g

/-- The rest of a template behind its first piece, with a parse for its holes. -/
def templateRest (hole : Parse Unit) : Parse Bool := do
  let mut sound := true
  match (← current).cls with
  | .template last s =>
    if last then
      advance
      return s
    sound := s
  | _ => unexpected
  advance
  go sound hole ((← read).size + 2)
where
  /-- The holes and pieces from here on. -/
  go (sound : Bool) (hole : Parse Unit) : Nat → Parse Bool
    | 0 => unexpected
    | fuel + 1 => do
      hole
      if !(← atMark "\x7d") then unexpected
      retake Lexer.templateToken Lexer.keeps_templateToken
      match (← current).cls with
      | .template last s =>
        advance
        if last then return sound && s else go (sound && s) hole fuel
      | _ => unexpected

/-- A type without suffixes. -/
def primaryType (g : Rules) : Parse Unit := do
  let t ← current
  match t.cls with
  | .string _ | .number => advance
  | .template _ _ =>
    let _ ← templateRest g.type
  | .mark "-" =>
    advance
    if (← current).cls = .number then advance else unexpected
  | .mark "\x7b" => if ← atMappedType then mappedType g else members g
  | .mark "[" =>
    advance
    let _ ← delimited "]" (tupleElement g)
    expect "]"
  | .mark "(" =>
    advance
    within (fun c => { c with noConditional := false }) g.type
    expect ")"
  | .word "import" false => importType g
  | .word "typeof" false =>
    advance
    if ← atWord "import" then importType g
    else
      entityName
      if !(← onNewLine) then typeArguments? g
  | .word "this" false =>
    advance
    if (← atWord "is") && !(← onNewLine) then
      advance
      g.type
  | .word text _ =>
    if isReserved text && !(["void", "null", "true", "false"].contains text) then unexpected
    else if text = "asserts" &&
        (← peekIs fun t => !t.newline && t.word?.isSome && !t.isWord "is") then
      resultType g
    else
      entityName
      if !(← onNewLine) then typeArguments? g
  | _ => unexpected

/-- A type with its suffixes. -/
def postfixType (g : Rules) : Parse Unit := do
  primaryType g
  repeatWhile do
    if ← atIndex then
      advance
      if !(← atMark "]") then g.type
      expect "]"
      return true
    else return false

/-- A type with the words before it. -/
def operatorType (g : Rules) : Parse Unit := do
  repeatWhile do
    if (← atWord "keyof") || (← atWord "unique") || (← atWord "readonly") then
      advance
      return true
    else return false
  if ← eatWord? "infer" then
    let _ ← identifier
    if ← atWord "extends" then
      let _ ← attempt do
        advance
        within (fun c => { c with noConditional := true }) g.type
        if !(← context).noConditional && (← atMark "?") then unexpected
  else postfixType g

/-- Operands with a mark between them, which may also stand in front. -/
def typeList (mark : String) (operand : Parse Unit) : Parse Unit := do
  let _ ← eat? mark
  repeatWhile do
    operand
    eat? mark

/-- A union of intersections. A function type may stand as an operand. -/
def unionType (g : Rules) : Parse Unit :=
  typeList "|" <| typeList "&" do
    if (← startsMark '<') || ((← atMark "(") && (← beginsFunctionType g)) then functionType g
    else operatorType g

/-- A type. -/
def type (g : Rules) : Parse Unit := do
  if (← startsMark '<') || ((← atMark "(") && (← beginsFunctionType g)) then functionType g
  else if (← atWord "new") then
    advance
    functionType g
  else if (← atWord "abstract") && (← peekIs fun t => t.isWord "new") then
    advance
    advance
    functionType g
  else
    unionType g
    if !(← context).noConditional && !(← onNewLine) && (← atWord "extends") then
      advance
      within (fun c => { c with noConditional := true }) g.type
      expect "?"
      within (fun c => { c with noConditional := false }) g.type
      expect ":"
      within (fun c => { c with noConditional := false }) g.type

/-! ### Arguments in expressions -/

/-- The words that are operators between two operands. -/
def wordOperators : List String := ["in", "instanceof", "as", "satisfies"]

/-- Whether a token is an operator between two operands. -/
def isBinaryOperator (t : Token) : Bool :=
  match t.cls with
  | .mark text =>
    ["??", "||", "&&", "|", "^", "&", "==", "!=", "===", "!==", "<", ">", "<=", ">=", "<<", ">>",
     ">>>", "+", "-", "*", "/", "%", "**"].contains text
  | .word text false => wordOperators.contains text
  | _ => false

/-- Whether a token may begin an expression. -/
def beginsExpression (t : Token) : Bool :=
  match t.cls with
  | .mark text =>
    ["(", "[", "\x7b", "/", "/=", "+", "-", "~", "!", "++", "--", "<", "@"].contains text
  | .word text _ =>
    !isReserved text ||
      ["this", "super", "null", "true", "false", "function", "class", "new", "delete", "typeof",
       "void", "import"].contains text
  | .eof | .markupText => false
  | _ => true

/-- Whether generic arguments in an expression may be followed by a token. -/
def followsTypeArguments (t : Token) : Bool :=
  match t.cls with
  | .template _ _ => true
  | .mark text =>
    if text = "(" then true
    else if ["<", ">", "+", "-"].contains text then false
    else t.newline || isBinaryOperator t || !beginsExpression t
  | _ => t.newline || isBinaryOperator t || !beginsExpression t

/-- Generic arguments in an expression, where the tokens admit no other reading. -/
def argumentsInExpression (g : Rules) : Parse Unit := do
  typeArgumentList g
  if ← atMark ">=" then unexpected
  expectAngle
  if followsTypeArguments (← current) then return else unexpected

end HotReload.Script.Parse
