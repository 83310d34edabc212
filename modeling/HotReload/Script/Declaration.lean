import HotReload.Script.Expression

/-!
# Declarations

Variables, classes, functions, the declarations of typed sources, and what a module imports and
exports.
-/

namespace HotReload.Script.Parse

/-! ### Variables -/

/-- The words that begin a declaration of variables. -/
inductive VariableWord where
  | var
  | let_
  | const
  | using
  deriving DecidableEq

/-- One variable with its initialiser; gives its names, and where an initialiser is missing, if one
is. -/
def variable_ (g : Rules) (word : VariableWord) : Parse (List Bound × Option Nat) := do
  let start ← here
  let isPattern := (← atMark "[") || (← atMark "\x7b")
  let names ← g.binding
  if (← isTyped) && (← atMark "!") then advance
  annotation g
  let stop ← lastEnd
  let found ← if ← eat? "=" then
      let _ ← g.assignment true
      pure true
    else pure false
  if found || (← context).ambient then return (names, none)
  if isPattern then return (names, some start)
  if word = .const || word = .using then return (names, some stop)
  return (names, none)

/-- Variables with commas between them; gives their names and where the first initialiser is
missing. -/
def variableList (g : Rules) (word : VariableWord) : Parse (List Bound × Option Nat) := do
  go [] none ((← read).size + 2)
where
  /-- The variables from here on. -/
  go (names : List Bound) (missing : Option Nat) : Nat → Parse (List Bound × Option Nat)
    | 0 => unexpected
    | fuel + 1 => do
      let (more, absent) ← variable_ g word
      let missing := missing <|> absent
      if ← eat? "," then go (names ++ more) missing fuel else return (names ++ more, missing)

/-- A declaration of variables from behind its word on. -/
def variableStatement (g : Rules) (word : VariableWord) : Parse (List Bound) := do
  let (names, missing) ← variableList g word
  if let some place := missing then noteAt place
  endStatement
  return names

/-! ### Declarations of typed sources -/

/-- An interface from behind its word on. -/
def interfaceTail (g : Rules) : Parse Unit := do
  let _ ← identifier
  typeParameters? g
  repeatWhile do
    if (← eatWord? "extends") || (← eatWord? "implements") then
      repeatWhile do
        let _ ← g.leftHand
        typeArguments? g
        eat? ","
      return true
    else return false
  members g

/-- A type alias from behind its word on. -/
def aliasTail (g : Rules) : Parse Unit := do
  let _ ← identifier
  typeParameters? g
  expect "="
  g.type
  endStatement

/-- An enumeration from behind its word on. -/
def enumTail (g : Rules) : Parse Unit := do
  let _ ← identifier
  expect "\x7b"
  let _ ← delimited "\x7d" do
    let place ← here
    let isNumber := (← current).cls = .number
    match ← propertyName g with
    | .hash _ => haltAt place
    | _ => if isNumber then noteAt place
    let _ ← initialiser? g
  expect "\x7d"

/-- The statements of a namespace in their braces, where the body is given. -/
def namespaceBody (g : Rules) : Parse Unit := do
  if ← atMark "\x7b" then
    within (fun c => { c with returnAllowed := false }) (block g)
  else endStatement

/-- A namespace from behind its word on. -/
def namespaceTail (g : Rules) : Parse Unit := do
  match (← current).cls with
  | .string _ => advance
  | _ => entityName
  namespaceBody g

/-- Whether a declaration that only typed sources have begins here. -/
def atTypedDeclaration : Parse Bool := do
  if !(← isTyped) then return false
  lookahead false (go ((← read).size + 2))
where
  /-- Whether the words from here on begin a declaration. -/
  go : Nat → Parse Bool
    | 0 => return false
    | fuel + 1 => do
      match (← current).cls with
      | .word text false =>
        advance
        let t ← current
        if ["interface", "type"].contains text then
          return !t.newline && (← atIdentifier)
        else if ["module", "namespace"].contains text then
          return !t.newline && ((← atIdentifier) || t.cls matches .string _)
        else if ["var", "let", "const", "function", "class", "enum"].contains text then return true
        else if ["abstract", "async", "declare"].contains text then
          if t.newline then return false
          go fuel
        else if text = "global" then return ← atMark "\x7b"
        else if text = "import" then return t.word?.isSome || t.isMark "*" || t.isMark "\x7b"
        else return false
      | _ => return false

/-- A declaration, with the words that typed sources put before it; gives the names it declares. -/
def declaration (g : Rules) : Nat → Parse (List Bound)
  | 0 => unexpected
  | fuel + 1 => do
    let t ← current
    match t.cls with
    | .word text false =>
      match text with
      | "var" => advance; variableStatement g .var
      | "let" => advance; variableStatement g .let_
      | "const" =>
        advance
        if (← isTyped) && (← eatWord? "enum") then
          enumTail g
          return []
        else variableStatement g .const
      | "function" | "async" =>
        let (name, _) ← function g .declaration
        return name.toList
      | "class" =>
        let name ← classTail g
        if name.isNone then noteAt t.start
        return name.toList
      | "enum" => advance; enumTail g; return []
      | "interface" => advance; interfaceTail g; return []
      | "type" => advance; aliasTail g; return []
      | "module" | "namespace" => advance; namespaceTail g; return []
      | "global" => advance; namespaceBody g; return []
      | "abstract" => advance; declaration g fuel
      | "declare" =>
        advance
        within (fun c => { c with ambient := true }) (declaration g fuel)
      | _ => unexpected
    | _ => unexpected

/-! ### Imports -/

/-- The attributes of an import, where they are given. -/
def importAttributes (g : Rules) : Parse Unit := do
  if (← atWord "with") || ((← atWord "assert") && !(← onNewLine)) then
    advance
    expect "\x7b"
    let _ ← delimited "\x7d" do
      match ← propertyName g with
      | .word _ _ | .string _ => expect ":"
      | _ => unexpected
      match (← current).cls with
      | .string _ => advance
      | _ => unexpected
    expect "\x7d"

/-- The literal that names a module, recorded unless it is for types alone. -/
def moduleLiteral (g : Rules) (typesOnly : Bool) : Parse Unit := do
  match (← current).cls with
  | .string _ =>
    if typesOnly then advance else literal .static
    importAttributes g
  | _ => unexpected

/-- Whether a word is a modifier of the import in braces, and not its name. -/
def atTypeModifier : Parse Bool :=
  lookahead false do
    expectWord "type"
    if ← eatWord? "as" then
      if ← eatWord? "as" then return true
      return (← atMark ",") || (← atMark "\x7d")
    return (← atAnyWord) || (← current).cls matches .string _

/-- One import in braces. -/
def importSpecifier : Parse Unit := do
  if (← isTyped) && (← atTypeModifier) then advance
  match (← current).cls with
  | .string _ =>
    advance
    expectWord "as"
    let _ ← identifier
  | _ =>
    if ← peekIs fun t => t.isWord "as" then
      let _ ← anyWord
      advance
      let _ ← identifier
    else
      let _ ← identifier

/-- What follows `import x =`. -/
def importAlias : Parse Unit := do
  if (← atWord "require") && (← peekIs fun t => t.isMark "(") then
    advance
    advance
    match (← current).cls with
    | .string _ => advance
    | _ => unexpected
    expect ")"
  else entityName
  endStatement

/-- What an import binds, from behind a first name on or from its beginning. -/
def importBindings : Parse Unit := do
  if ← eat? "*" then
    expectWord "as"
    let _ ← identifier
  else
    expect "\x7b"
    let _ ← delimited "\x7d" importSpecifier
    expect "\x7d"

/-- Whether `type` begins an import for types alone. -/
def atTypeImport : Parse Bool := do
  if !(← isTyped) then return false
  lookahead false do
    expectWord "type"
    if (← atMark "\x7b") || (← atMark "*") then return true
    if ← atWord "from" then
      advance
      return (← atWord "from") || (← atMark "=")
    atIdentifier

/-- Whether `source` or `defer` begins an import in a phase of its own. -/
def atPhase : Parse Bool :=
  lookahead false do
    if ← eatWord? "defer" then atMark "*"
    else
      expectWord "source"
      if ← atWord "from" then
        advance
        atWord "from"
      else atIdentifier

/-- An import declaration. -/
def importDeclaration (g : Rules) : Parse Unit := do
  expectWord "import"
  if let .string _ := (← current).cls then
    moduleLiteral g false
    endStatement
    return
  let typesOnly ← atTypeImport
  if typesOnly then advance
  else if ← atPhase then advance
  if ← atIdentifier then
    let _ ← identifier
    if (← isTyped) && (← atMark "=") then
      advance
      importAlias
      return
    if ← eat? "," then importBindings
  else importBindings
  expectWord "from"
  moduleLiteral g typesOnly
  endStatement

/-! ### Exports -/

/-- The words that are no variables in a module although the grammar takes them for identifiers. -/
def moduleWords : List String :=
  ["await", "implements", "interface", "let", "package", "private", "protected", "public", "static"]

/-- The name of an export: its text, its place, and whether it may be the name of a variable. -/
def exportName : Parse (String × Nat × Bool) := do
  let t ← current
  match t.cls with
  | .string value => advance; return (value, t.start, false)
  | .word text _ =>
    advance
    return (text, t.start, !isReserved text && !moduleWords.contains text)
  | _ => unexpected

/-- One export in braces: where the local name is none of a variable, if so. -/
def exportSpecifier : Parse (Option Nat) := do
  if (← isTyped) && (← atTypeModifier) then advance
  let (text, place, isName) ← exportName
  let (exported, at_) ← if ← eatWord? "as" then
      let (exported, at_, _) ← exportName
      pure (exported, at_)
    else pure (text, place)
  recordExport exported at_
  return if isName then none else some place

/-- Exports in braces, with or without the module they come from. -/
def exportList (g : Rules) (typesOnly : Bool) : Parse Unit := do
  expect "\x7b"
  let fault ← go none ((← read).size + 2)
  if ← eatWord? "from" then moduleLiteral g typesOnly
  else if let some place := fault then noteAt place
  endStatement
where
  /-- The exports from here on. -/
  go (fault : Option Nat) : Nat → Parse (Option Nat)
    | 0 => unexpected
    | fuel + 1 => do
      if ← eat? "\x7d" then return fault
      let more ← exportSpecifier
      if !(← atMark "\x7d") then expect ","
      go (fault <|> more) fuel

/-- The exports of another module. -/
def exportAll (g : Rules) (typesOnly : Bool) : Parse Unit := do
  expect "*"
  if ← eatWord? "as" then
    let (name, place, _) ← exportName
    recordExport name place
  expectWord "from"
  moduleLiteral g typesOnly
  endStatement

/-- A default export from `default` on. -/
def exportDefault (g : Rules) : Parse Unit := do
  recordExport "default" (← here)
  expectWord "default"
  let _ ← decorators g
  if (← atWord "function") || (← atAsyncFunction) then
    let _ ← function g .defaultExport
  else if ← atWord "class" then
    let _ ← classTail g
  else if (← isTyped) && (← atWord "abstract") && (← peekIs fun t => t.isWord "class") then
    advance
    let _ ← classTail g
  else if (← isTyped) && (← atWord "interface") &&
      (← peekIs fun t => t.word?.isSome && !t.newline) then
    advance
    interfaceTail g
  else
    let _ ← initialiser g
    endStatement

/-- Whether `type` begins an export for types alone. -/
def atTypeExport : Parse Bool := do
  return (← isTyped) && (← atWord "type") &&
    (← peekIs fun t => t.isMark "\x7b" || t.isMark "*")

/-- An export declaration. -/
def exportDeclaration (g : Rules) : Parse Unit := do
  expectWord "export"
  if ← atWord "default" then exportDefault g
  else if ← atMark "*" then exportAll g false
  else if ← atMark "\x7b" then exportList g false
  else if ← atTypeExport then
    advance
    if ← atMark "*" then exportAll g true else exportList g true
  else if (← isTyped) && (← eat? "=") then
    let _ ← g.expression
    endStatement
  else if (← isTyped) && (← atWord "as") && (← peekIs fun t => t.isWord "namespace") then
    advance
    advance
    let _ ← identifier
    endStatement
  else if (← isTyped) && (← atWord "import") then
    advance
    let _ ← if (← atWord "type") && (← peekIs fun t => t.word?.isSome) then advance
    let _ ← identifier
    expect "="
    importAlias
  else
    let _ ← decorators g
    let typedWord := ["interface", "type", "module", "namespace", "global", "abstract", "declare",
      "enum"].contains ((← current).word?.getD "")
    if typedWord && !(← isTyped) then unexpected
    if (← atWord "async") && !(← atAsyncFunction) then unexpected
    let names ← declaration g ((← read).size + 2)
    for (name, place) in names do
      recordExport name place

end HotReload.Script.Parse
