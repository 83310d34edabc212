import HotReload.Script.Form

/-!
# Patterns, parameters and property names
-/

namespace HotReload.Script.Parse

/-- A name with its place. -/
abbrev Bound := String × Nat

/-- The type behind a colon, where the dialect has types and a colon is current. -/
def annotation (g : Rules) : Parse Unit := do
  if (← isTyped) && (← atMark ":") then
    advance
    within (fun c => { c with noConditional := false }) g.type

/-- An expression in which `in` is an operator. -/
def initialiser (g : Rules) : Parse Form :=
  within (fun c => { c with inOperator := true }) (g.assignment true)

/-- The value behind an equals sign, where one is current. -/
def initialiser? (g : Rules) : Parse Bool := do
  if ← eat? "=" then
    let _ ← initialiser g
    return true
  else return false

/-! ### Property names -/

/-- What a property is called. -/
inductive PropertyName where
  /-- A word, with its place. -/
  | word (text : String) (place : Nat)
  | string (value : String)
  | hash (text : String)
  /-- A number or a computed name. -/
  | other
  deriving Inhabited

/-- Whether a property name begins at a token. -/
def beginsName (t : Token) : Bool :=
  match t.cls with
  | .word _ _ | .hashWord _ | .string _ | .number => true
  | .mark text => text = "["
  | _ => false

/-- The name of a property. -/
def propertyName (g : Rules) : Parse PropertyName := do
  let t ← current
  match t.cls with
  | .word text _ => advance; return .word text t.start
  | .string value => advance; return .string value
  | .hashWord text => advance; return .hash text
  | .number => advance; return .other
  | .mark "[" =>
    advance
    let _ ← initialiser g
    expect "]"
    return .other
  | _ => unexpected

/-! ### Patterns -/

/-- A name that is bound. -/
def boundName : Parse Bound := do
  let place ← here
  return (← identifier, place)

/-- A pattern with an optional default. -/
def bindingElement (g : Rules) : Parse (List Bound) := do
  let names ← g.binding
  annotation g
  let _ ← initialiser? g
  return names

/-- Elements with commas between them, of which the last may take the rest. An element is told
whether it is the rest; the closing mark is left current. -/
def delimitedRest (close : String) (element : Bool → Parse (List Bound)) : Parse (List Bound) := do
  go none [] ((← read).size + 2)
where
  /-- The elements from here on. -/
  go (rest : Option Nat) (names : List Bound) : Nat → Parse (List Bound)
    | 0 => unexpected
    | fuel + 1 => do
      if ← atMark close then return names
      if let some place := rest then noteAt place
      let start ← here
      let isRest ← eat? "..."
      let more ← element isRest
      let rest := if isRest then some start else rest
      if ← atMark close then return names ++ more
      let comma ← here
      expect ","
      if ← atMark close then
        if rest.isSome && !(← context).ambient then noteAt comma
        return names ++ more
      go rest (names ++ more) fuel

/-- The pattern of an array. -/
def arrayBinding (g : Rules) : Parse (List Bound) := do
  expect "["
  let names ← delimitedRest "]" fun isRest => do
    if isRest then
      let names ← g.binding
      annotation g
      if ← atMark "=" then unexpected
      return names
    else if (← atMark ",") || (← atMark "]") then return []
    else bindingElement g
  expect "]"
  return names

/-- The pattern of an object. -/
def objectBinding (g : Rules) : Parse (List Bound) := do
  expect "\x7b"
  let names ← delimitedRest "\x7d" fun isRest => do
    if isRest then
      if (← atMark "[") || (← atMark "\x7b") then note
      g.binding
    else
      let t ← current
      let bare ← atIdentifier
      match ← propertyName g with
      | .hash _ => haltAt t.start
      | name =>
        if bare && !(← atMark ":") then
          match name with
          | .word text place =>
            let c ← context
            if c.awaitAllowed && text = "await" then noteAt place
            if c.yieldAllowed && text = "yield" then noteAt place
            let _ ← initialiser? g
            return [(text, place)]
          | _ => unexpected
        else
          expect ":"
          bindingElement g
  expect "\x7d"
  return names

/-- A binding pattern. -/
def bindingPattern (g : Rules) : Parse (List Bound) := do
  if ← atMark "[" then arrayBinding g
  else if ← atMark "\x7b" then objectBinding g
  else return [← boundName]

/-! ### Decorators and parameters -/

/-- Any decorators at the current place. -/
def decorators (g : Rules) : Parse Bool := do
  let found ← atMark "@"
  repeatWhile do
    if ← eat? "@" then
      let _ ← within (fun c => { c with decorator := true }) g.leftHand
      return true
    else return false
  return found

/-- The words that may stand before a parameter of a constructor. -/
def parameterModifiers : List String := ["public", "private", "protected", "readonly", "override"]

/-- Goes past the modifiers of a parameter. -/
def skipParameterModifiers : Parse Unit :=
  repeatWhile do
    match (← current).cls with
    | .word text false =>
      if parameterModifiers.contains text &&
          (← peekIs fun t => t.word?.isSome || t.isMark "\x7b" || t.isMark "[") then
        advance
        return true
      else return false
    | _ => return false

/-- One parameter of a function. -/
def parameter (g : Rules) (isRest : Bool) : Parse (List Bound) := do
  let _ ← decorators g
  if ← isTyped then
    skipParameterModifiers
  let isRest := isRest || (← eat? "...")
  let names ← g.binding
  if (← isTyped) && (← atMark "?") then advance
  annotation g
  if isRest then
    if ← atMark "=" then
      note
      let _ ← initialiser? g
  else
    let _ ← initialiser? g
  return names

/-- The parameters of a function in their parentheses. -/
def parameters (g : Rules) : Parse Unit := do
  expect "("
  if (← isTyped) && (← atWord "this") then
    advance
    annotation g
    if !(← atMark ")") then expect ","
  let _ ← delimitedRest ")" (parameter g)
  expect ")"

end HotReload.Script.Parse
