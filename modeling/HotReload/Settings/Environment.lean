import HotReload.Settings.Layer
import HotReload.Text.Basic

/-!
# Settings from the environment

A variable whose name starts with `FOB_HMR_`, in letters of either case, names a setting by the rest
of its name. Its text is read as a value: `true`, a number, a quoted string, a bracketed list, a
braced record, and as a plain text when it is none of these.

* `LooseValue.ofText`: the value that a text spells.
* `Layer.ofEnvironment`: what the variables say.
-/

namespace HotReload

namespace LooseValue

/-! ### Blanks and separators -/

/-- The blanks around the parts of a value. -/
def isGap (c : Char) : Bool := c = ' ' || c = '\t' || c = '\n' || c = '\x0c' || c = '\r'

/-- Drops the blanks at the front. -/
def skipGaps (cs : List Char) : List Char := cs.dropWhile isGap

/-- The characters that end a plain value. -/
def isSeparator (c : Char) : Bool :=
  c = ',' || c = '\x7b' || c = '\x7d' || c = '[' || c = ']'

/-- The characters of a key that is written without quotes. -/
def isKeyChar (c : Char) : Bool := c.isAlphanum || c = '_' || c = '-'

/-! ### Quoted strings -/

/-- The body of a quoted string, escapes included, and what follows the closing quote. -/
def quotedBody : List Char → Option (List Char × List Char)
  | [] => none
  | '"' :: rest => some ([], rest)
  | '\\' :: c :: rest => (quotedBody rest).map fun (body, rest) => ('\\' :: c :: body, rest)
  | c :: rest => (quotedBody rest).map fun (body, rest) => (c :: body, rest)

/-- The character whose number is spelled by hexadecimal digits. -/
def ofHex? (ds : List Char) : Option Char := do
  let values ← ds.mapM Json.hexValue?
  let n := values.foldl (fun n d => 16 * n + d) 0
  if n.isValidChar then some (Char.ofNat n) else none

/-- Whether a character may stand in a quoted string as it is. -/
def isPlain (c : Char) : Bool := c = '\t' || (' ' ≤ c && c ≠ '\x7f')

/-- The text that the body of a quoted string spells. -/
def unescape : List Char → Option (List Char)
  | [] => some []
  | '\\' :: 'u' :: a :: b :: c :: d :: rest => do
    return (← ofHex? [a, b, c, d]) :: (← unescape rest)
  | '\\' :: 'U' :: a :: b :: c :: d :: e :: f :: g :: h :: rest => do
    return (← ofHex? [a, b, c, d, e, f, g, h]) :: (← unescape rest)
  | '\\' :: c :: rest => do
    let c ← match c with
      | '"' => some '"'
      | '\\' => some '\\'
      | 'b' => some '\x08'
      | 'f' => some '\x0c'
      | 'n' => some '\n'
      | 'r' => some '\r'
      | 't' => some '\t'
      | _ => none
    return c :: (← unescape rest)
  | c :: rest => if isPlain c && c ≠ '\\' then (unescape rest).map (c :: ·) else none

/-- A quoted string, behind its opening quote. -/
def readQuoted (cs : List Char) : Option (String × List Char) := do
  let (body, rest) ← quotedBody cs
  let text ← unescape body
  some (String.ofList text, rest)

/-! ### Plain values -/

/-- Takes the sign off a number. -/
def unsign : List Char → List Char
  | '+' :: ds => ds
  | '-' :: ds => ds
  | ds => ds

/-- Whether the characters are digits, of which there is at least one. -/
def areDigits (cs : List Char) : Bool := !cs.isEmpty && cs.all Char.isDigit

/-- Whether a text is an exponent, or nothing. -/
def isExponent : List Char → Bool
  | [] => true
  | e :: ds => (e = 'e' || e = 'E') && areDigits (unsign ds)

/-- Whether a text is a decimal number with a point: digits on one side of the point at least, then
perhaps an exponent. -/
def isFraction (cs : List Char) : Bool :=
  let cs := unsign cs
  let whole := cs.takeWhile Char.isDigit
  match cs.dropWhile Char.isDigit with
  | '.' :: rest =>
    (!whole.isEmpty || !(rest.takeWhile Char.isDigit).isEmpty) &&
      isExponent (rest.dropWhile Char.isDigit)
  | _ => false

/-- The integer that a text spells, where it fits 64 bits, with or without a sign. -/
def integer? : List Char → Option Int
  | '-' :: ds => ((Text.digits? ds).filter (2 * · ≤ UInt64.size)).map fun n => -(n : Int)
  | cs => ((Text.natural? cs).filter (· < UInt64.size)).map Int.ofNat

/-- The value that a text without quotes or brackets spells. -/
def ofPlain (text : String) : LooseValue :=
  if isFraction text.toList then .unfit
  else
    match integer? text.toList with
    | some n => .whole n
    | none => .string text

/-! ### Values -/

/-- Drops a word from the front of a text. -/
def dropWord? : List Char → List Char → Option (List Char)
  | [], cs => some cs
  | w :: ws, c :: cs => if w = c then dropWord? ws cs else none
  | _ :: _, [] => none

/-- The value at the front of a text that is neither a list nor a record, and the rest. -/
def readScalar (cs : List Char) : Option (LooseValue × List Char) :=
  match dropWord? "true".toList cs, dropWord? "false".toList cs with
  | some rest, _ | none, some rest => some (.unfit, rest)
  | none, none =>
    match cs with
    | '"' :: rest => (readQuoted rest).map fun (text, rest) => (.string text, rest)
    | '\x27' :: c :: '\x27' :: rest => some (.string (String.singleton c), rest)
    | '\x27' :: _ => none
    | cs =>
      let plain := cs.takeWhile fun c => !isSeparator c
      some (ofPlain (Text.trim (String.ofList plain)), cs.drop plain.length)

/-- A key of a record, and the rest behind its equals sign. -/
def dropKey? (cs : List Char) : Option (List Char) := do
  let rest ← match skipGaps cs with
    | '"' :: rest => (readQuoted rest).map (·.2)
    | c :: rest => if isKeyChar c then some (rest.dropWhile isKeyChar) else none
    | [] => none
  match skipGaps rest with
  | '=' :: rest => some rest
  | _ => none

mutual

/-- The value at the front of a text, with the blanks around it, and the rest. -/
def readValue : Nat → List Char → Option (LooseValue × List Char)
  | 0, _ => none
  | fuel + 1, cs => do
    let (value, rest) ← match skipGaps cs with
      | '[' :: rest => (readItems fuel rest).map fun (items, rest) => (.list items, rest)
      | '\x7b' :: rest => (dropFields? fuel rest).map fun rest => (.unfit, rest)
      | cs => readScalar cs
    some (value, skipGaps rest)

/-- The items of a list up to its closing bracket; a comma may stand before the bracket. -/
def readItems : Nat → List Char → Option (List LooseValue × List Char)
  | 0, _ => none
  | fuel + 1, cs =>
    match cs with
    | ']' :: rest => some ([], rest)
    | cs => do
      let (item, rest) ← readValue fuel cs
      match rest with
      | ',' :: rest => (readItems fuel rest).map fun (items, rest) => (item :: items, rest)
      | ']' :: rest => some ([item], rest)
      | _ => none

/-- What follows the fields of a record and its closing brace; a comma may stand before the
brace. -/
def dropFields? : Nat → List Char → Option (List Char)
  | 0, _ => none
  | fuel + 1, cs =>
    match cs with
    | '\x7d' :: rest => some rest
    | cs => do
      let rest ← dropKey? cs
      let (_, rest) ← readValue fuel rest
      match rest with
      | ',' :: rest => dropFields? fuel rest
      | '\x7d' :: rest => some rest
      | _ => none

end

/-- The value that a text spells; the text itself where it spells none. -/
def ofText (text : String) : LooseValue :=
  let text := Text.trim text
  match readValue (2 * text.length + 2) text.toList with
  | some (value, []) => value
  | _ => .string text

end LooseValue

/-! ### Variables -/

/-- What the name of a variable starts with when it names a setting. -/
def Layer.variablePrefix : String := "fob_hmr_"

/-- The name of the setting that a variable names, in lower case. -/
def Layer.settingOf? (variableName : String) : Option String :=
  let name := (Text.asciiLower (Text.trim variableName)).toList
  if Layer.variablePrefix.toList.isPrefixOf name then
    let key := Text.trim (String.ofList (name.drop Layer.variablePrefix.length))
    if (Text.split '.' key).contains "" then none else some key
  else none

/-- What the variables of an environment say, in their order. A name with dots names a part of a
setting, and no setting has parts. -/
def Layer.ofEnvironment (environment : List (String × String)) : Layer :=
  environment.foldl (fun layer (name, text) =>
    match Layer.settingOf? name with
    | none => layer
    | some key =>
      match Text.splitFirst? '.' key with
      | some (key, _) => Assoc.insert layer key .unfit
      | none => Assoc.insert layer key (LooseValue.ofText text)) []

end HotReload
