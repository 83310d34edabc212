import HotReload.Script.Types

/-!
# Markup elements

The text between tags is read by rules of its own: the token that follows a tag is asked for there,
and the token that follows the outermost element is an ordinary one again.
-/

namespace HotReload.Script.Parse

/-- Ends a tag at its closing angle; `last` says that what follows is not markup. -/
def endTag (last : Bool) : Parse Unit := do
  if ← startsMark '>' then
    splitMark
    if last then advance
    else goOn Lexer.markupChild Lexer.forward_markupChild
  else unexpected

/-- A word of markup, hyphens included. -/
def markupWord : Parse String := do
  if ← atAnyWord then
    retake (fun s t => .ok (Lexer.markupWord s t)) Lexer.keeps_markupWord
    anyWord
  else unexpected

/-- The name of an element. -/
def elementName : Parse String := do
  let first ← markupWord
  if ← eat? ":" then
    return first ++ ":" ++ (← markupWord)
  else go first ((← read).size + 2)
where
  /-- The rest of a dotted name. -/
  go (text : String) : Nat → Parse String
    | 0 => unexpected
    | fuel + 1 => do
      if ← eat? "." then go (text ++ "." ++ (← markupWord)) fuel else return text

/-- One attribute of a tag. -/
def tagAttribute (g : Rules) : Parse Unit := do
  if ← eat? "\x7b" then
    expect "..."
    let _ ← g.expression
    expect "\x7d"
  else
    let _ ← markupWord
    if ← eat? ":" then
      let _ ← markupWord
    if ← startsMark '=' then
      splitMark
      goOn Lexer.markupValue Lexer.forward_markupValue
      match (← current).cls with
      | .string _ => advance
      | .mark "\x7b" =>
        advance
        if ← atMark "\x7d" then note
        else
          let _ ← g.expression
        expect "\x7d"
      | .mark _ => if ← startsMark '<' then g.element true else unexpected
      | _ => unexpected

/-- Whether the tag at the current angle closes an element. -/
def atClosingTag : Parse Bool := peekIs fun t => t.isMark "/"

/-- What stands between two tags, up to the angle of the closing one. -/
def children (g : Rules) : Parse Unit :=
  repeatWhile do
    match (← current).cls with
    | .markupText =>
      goOver Lexer.markupChild Lexer.forward_markupChild
      return true
    | .mark "\x7b" =>
      advance
      let _ ← eat? "..."
      if !(← atMark "\x7d") then
        let _ ← g.expression
      if !(← atMark "\x7d") then unexpected
      goOver Lexer.markupChild Lexer.forward_markupChild
      return true
    | .mark "<" =>
      if ← atClosingTag then return false
      g.element false
      return true
    | _ => unexpected

/-- An element from its opening angle on. -/
def element (g : Rules) (last : Bool) : Parse Unit := do
  splitMark
  expect "<"
  if ← startsMark '>' then
    endTag false
    children g
    expect "<"
    expect "/"
    endTag last
  else
    let name ← elementName
    typeArguments? g
    repeatWhile do
      if (← startsMark '>') || (← atMark "/") then return false
      tagAttribute g
      return true
    if ← eat? "/" then endTag last
    else
      endTag false
      children g
      expect "<"
      expect "/"
      let place ← here
      if ← startsMark '>' then noteAt place
      else
        let closing ← elementName
        if closing ≠ name then noteAt place
      endTag last

end HotReload.Script.Parse
