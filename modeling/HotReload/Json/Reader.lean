import HotReload.Json.Basic
import HotReload.Json.Number

/-!
# Reading JSON

`Json.parse` reads a whole text as one value, or gives the line of the first fault. It refuses
numbers out of range, escapes that spell no character, and nesting deeper than `depthLimit`.

* `readString`, `readNumber`, `readValue`: a reader takes what it needs from the front of the text
  and gives back the rest; a fault gives back what follows the offending character.
* `Care.loose` is the reading of a value that nobody looks at: it recognises the value and refuses
  nothing but faulty grammar.
-/

namespace HotReload.Json

/-- How closely a value is read. -/
inductive Care where
  /-- The value is kept. -/
  | strict
  /-- The value is passed over. -/
  | loose
  deriving DecidableEq

/-- Where reading failed: the text behind the offending character. -/
abbrev Fault := List Char

/-- Nesting deeper than this is refused. -/
def depthLimit : Nat := 127

/-- The blanks between tokens. -/
def isBlank (c : Char) : Bool := c = ' ' || c = '\n' || c = '\t' || c = '\r'

/-- Drops the blanks at the front. -/
def skipBlanks (cs : List Char) : List Char := cs.dropWhile isBlank

/-! ### Strings -/

/-- The value of a hexadecimal digit. -/
def hexValue? (c : Char) : Option Nat :=
  if '0' ≤ c ∧ c ≤ '9' then some (c.toNat - '0'.toNat)
  else if 'a' ≤ c ∧ c ≤ 'f' then some (c.toNat - 'a'.toNat + 10)
  else if 'A' ≤ c ∧ c ≤ 'F' then some (c.toNat - 'A'.toNat + 10)
  else none

/-- Four hexadecimal digits. -/
def readHex4 : List Char → Except Fault (Nat × List Char)
  | a :: b :: c :: d :: rest =>
    match hexValue? a, hexValue? b, hexValue? c, hexValue? d with
    | some a, some b, some c, some d => .ok (((a * 16 + b) * 16 + c) * 16 + d, rest)
    | _, _, _, _ => .error rest
  | _ => .error []

/-- Whether a number is a leading surrogate. -/
def isLeading (n : Nat) : Bool := 0xD800 ≤ n && n < 0xDC00

/-- Whether a number is a trailing surrogate. -/
def isTrailing (n : Nat) : Bool := 0xDC00 ≤ n && n < 0xE000

/-- What a lone surrogate reads as, where it is not refused. -/
def readLone (care : Care) (rest : List Char) : Except Fault (Char × List Char) :=
  match care with
  | .strict => .error rest
  | .loose => .ok ('\ufffd', rest)

/-- The character that follows `\u`; a pair of surrogates is one character. -/
def readUnicode (care : Care) (cs : List Char) : Except Fault (Char × List Char) := do
  let (unit, rest) ← readHex4 cs
  if isLeading unit then
    match rest with
    | '\\' :: 'u' :: more =>
      let (low, after) ← readHex4 more
      if isTrailing low then
        .ok (Char.ofNat (0x10000 + (unit - 0xD800) * 0x400 + (low - 0xDC00)), after)
      else readLone care rest
    | _ => readLone care rest
  else if isTrailing unit then readLone care rest
  else .ok (Char.ofNat unit, rest)

/-- The character that follows a backslash. -/
def readEscape (care : Care) : List Char → Except Fault (Char × List Char)
  | '"' :: rest => .ok ('"', rest)
  | '\\' :: rest => .ok ('\\', rest)
  | '/' :: rest => .ok ('/', rest)
  | 'b' :: rest => .ok ('\x08', rest)
  | 'f' :: rest => .ok ('\x0c', rest)
  | 'n' :: rest => .ok ('\n', rest)
  | 'r' :: rest => .ok ('\r', rest)
  | 't' :: rest => .ok ('\t', rest)
  | 'u' :: rest => readUnicode care rest
  | _ :: rest => .error rest
  | [] => .error []

/-- The rest of a string behind its opening quote; `fuel` bounds the characters read. -/
def readStringBody (care : Care) : Nat → List Char → Except Fault ((List Char) × List Char)
  | 0, cs => .error cs
  | _ + 1, [] => .error []
  | fuel + 1, c :: cs =>
    if c = '"' then .ok ([], cs)
    else if c = '\\' then do
      let (d, rest) ← readEscape care cs
      let (ds, rest) ← readStringBody care fuel rest
      .ok (d :: ds, rest)
    else if c.toNat < 0x20 then .error cs
    else do
      let (ds, rest) ← readStringBody care fuel cs
      .ok (c :: ds, rest)

/-- A string behind its opening quote. -/
def readString (care : Care) (cs : List Char) : Except Fault (String × List Char) := do
  let (text, rest) ← readStringBody care (cs.length + 1) cs
  .ok (String.ofList text, rest)

/-! ### Numbers -/

/-- One digit or more; a fault counts the offending character. -/
def readDigits (cs : List Char) : Except Fault ((List Char) × List Char) :=
  match cs with
  | [] => .error []
  | c :: rest =>
    if c.isDigit then .ok (cs.takeWhile Char.isDigit, cs.dropWhile Char.isDigit)
    else .error rest

/-- The part of a number from its exponent mark on. -/
def readExponent (cs : List Char) : Except Fault ((List Char) × List Char) :=
  match cs with
  | e :: rest =>
    if e = 'e' ∨ e = 'E' then
      match rest with
      | s :: more =>
        if s = '+' ∨ s = '-' then do
          let (ds, rest) ← readDigits more
          .ok (e :: s :: ds, rest)
        else do
          let (ds, rest) ← readDigits rest
          .ok (e :: ds, rest)
      | [] => .error []
    else .ok ([], cs)
  | [] => .ok ([], [])

/-- The part of a number from its point on. -/
def readFraction (cs : List Char) : Except Fault ((List Char) × List Char) :=
  match cs with
  | '.' :: rest => do
    let (ds, rest) ← readDigits rest
    let (e, rest) ← readExponent rest
    .ok ('.' :: ds ++ e, rest)
  | _ => readExponent cs

/-- A number without its sign. -/
def readMagnitude (cs : List Char) : Except Fault ((List Char) × List Char) :=
  match cs with
  | '0' :: rest =>
    match rest with
    | c :: more => if c.isDigit then .error more else do
        let (f, rest) ← readFraction rest
        .ok ('0' :: f, rest)
    | [] => .ok (['0'], [])
  | _ => do
    let (ds, rest) ← readDigits cs
    let (f, rest) ← readFraction rest
    .ok (ds ++ f, rest)

/-- A number literal. -/
def readNumber (care : Care) (cs : List Char) : Except Fault (String × List Char) := do
  let (literal, rest) ← match cs with
    | '-' :: more => do
      let (ds, rest) ← readMagnitude more
      pure ('-' :: ds, rest)
    | _ => readMagnitude cs
  let literal := String.ofList literal
  match care, Number.canonical? literal with
  | .strict, none => .error rest
  | _, _ => .ok (literal, rest)

/-! ### Values -/

/-- The given characters. -/
def readWord : List Char → List Char → Except Fault (Unit × List Char)
  | [], cs => .ok ((), cs)
  | _ :: _, [] => .error []
  | w :: ws, c :: cs => if w = c then readWord ws cs else .error cs

mutual

/-- One value, after blanks; `depth` is how deep it may still nest and `fuel` bounds the
recursion. -/
def readValueAt (care : Care) (depth : Nat) : Nat → List Char → Except Fault (Json × List Char)
  | 0, cs => .error cs
  | fuel + 1, cs =>
    match skipBlanks cs with
    | [] => .error []
    | 'n' :: rest => do
      let ((), rest) ← readWord "ull".toList rest
      .ok (.null, rest)
    | 't' :: rest => do
      let ((), rest) ← readWord "rue".toList rest
      .ok (.bool true, rest)
    | 'f' :: rest => do
      let ((), rest) ← readWord "alse".toList rest
      .ok (.bool false, rest)
    | '"' :: rest => do
      let (text, rest) ← readString care rest
      .ok (.string text, rest)
    | '[' :: rest =>
      if depth = 0 ∧ care = .strict then .error rest
      else do
        let (items, rest) ← readItems care (depth - 1) fuel true rest
        .ok (.array items, rest)
    | '\x7b' :: rest =>
      if depth = 0 ∧ care = .strict then .error rest
      else do
        let (fields, rest) ← readFields care (depth - 1) fuel true rest
        .ok (.object fields, rest)
    | c :: rest =>
      if c = '-' ∨ c.isDigit then do
        let (literal, rest) ← readNumber care (c :: rest)
        .ok (.number literal, rest)
      else .error rest

/-- The items of an array up to its closing bracket; `first` says that none was read yet. -/
def readItems (care : Care) (depth : Nat) :
    Nat → Bool → List Char → Except Fault (List Json × List Char)
  | 0, _, cs => .error cs
  | fuel + 1, first, cs =>
    match skipBlanks cs with
    | [] => .error []
    | ']' :: rest => .ok ([], rest)
    | c :: rest =>
      if first then do
        let (item, rest) ← readValueAt care depth fuel (c :: rest)
        let (items, rest) ← readItems care depth fuel false rest
        .ok (item :: items, rest)
      else if c = ',' then
        match skipBlanks rest with
        | ']' :: rest => .error rest
        | rest => do
          let (item, rest) ← readValueAt care depth fuel rest
          let (items, rest) ← readItems care depth fuel false rest
          .ok (item :: items, rest)
      else .error rest

/-- The fields of an object up to its closing brace; `first` says that none was read yet. -/
def readFields (care : Care) (depth : Nat) :
    Nat → Bool → List Char → Except Fault (List (String × Json) × List Char)
  | 0, _, cs => .error cs
  | fuel + 1, first, cs =>
    match skipBlanks cs with
    | [] => .error []
    | '\x7d' :: rest => .ok ([], rest)
    | c :: rest =>
      if first then readField care depth fuel (c :: rest)
      else if c = ',' then readField care depth fuel (skipBlanks rest)
      else .error rest

/-- One field and those after it. -/
def readField (care : Care) (depth : Nat) :
    Nat → List Char → Except Fault (List (String × Json) × List Char)
  | 0, cs => .error cs
  | fuel + 1, cs =>
    match cs with
    | [] => .error []
    | '"' :: rest => do
      let (key, rest) ← readString care rest
      match skipBlanks rest with
      | ':' :: rest => do
        let (value, rest) ← readValueAt care depth fuel rest
        let (fields, rest) ← readFields care depth fuel false rest
        .ok ((key, value) :: fields, rest)
      | _ :: rest => .error rest
      | [] => .error []
    | _ :: rest => .error rest

end

/-- One value at the front of a text. -/
def readValue (care : Care) (cs : List Char) : Except Fault (Json × List Char) :=
  readValueAt care depthLimit (4 * cs.length + 4) cs

/-- The line of a fault, from one, by the line feeds up to and with the offending character. -/
def lineOfFault (cs rest : List Char) : Nat :=
  (cs.take (cs.length - rest.length)).count '\n' + 1

/-- The value that a whole text spells, or the line of its first fault. -/
def parse (text : String) : Except Nat Json :=
  let cs := text.toList
  match readValue .strict cs with
  | .error rest => .error (lineOfFault cs rest)
  | .ok (value, rest) =>
    match skipBlanks rest with
    | [] => .ok value
    | _ :: rest => .error (lineOfFault cs rest)

/-! ### Normal form -/

/-- Puts a field into an object: a key that is there keeps its place and takes the new value. -/
def putField (fields : List (String × Json)) (key : String) (value : Json) : List (String × Json) :=
  if fields.any (·.1 = key) then
    fields.map fun field => if field.1 = key then (key, value) else field
  else fields ++ [(key, value)]

mutual

/-- The value with every number in its canonical text and every key once, with its last value. -/
def normal : Json → Json
  | .number literal => .number ((Number.canonical? literal).getD literal)
  | .array items => .array (normalItems items)
  | .object fields => .object (normalFields [] fields)
  | value => value

/-- The normal form of every item. -/
def normalItems : List Json → List Json
  | [] => []
  | item :: items => item.normal :: normalItems items

/-- The fields put one after the other, each in normal form. -/
def normalFields (done : List (String × Json)) : List (String × Json) → List (String × Json)
  | [] => done
  | (key, value) :: fields => normalFields (putField done key value.normal) fields

end

/-- The value of a field; of several with one key, the last. -/
def field? (value : Json) (key : String) : Option Json :=
  match value with
  | .object fields => fields.reverse.lookup key
  | _ => none

end HotReload.Json
