/-!
# JSON values and their compact text

A `Json` value keeps every number as the literal it was written with and every object as the list
of its fields in order, so that writing chooses nothing.

* `Json.quote`: a string literal; only `"`, `\` and the controls below U+0020 are escaped.
* `Json.render`: the text of a value, with no blanks.
-/

namespace HotReload

/-- A JSON value. -/
inductive Json where
  | null
  | bool (value : Bool)
  /-- A number, as it was written. -/
  | number (literal : String)
  | string (text : String)
  | array (items : List Json)
  /-- The fields, in the order they were written. -/
  | object (fields : List (String × Json))
  deriving Inhabited

namespace Json

/-- A natural number. -/
def nat (n : Nat) : Json := .number (toString n)

/-- A list of texts. -/
def strings (texts : List String) : Json := .array (texts.map .string)

/-! ### Strings -/

/-- The lower-case hexadecimal digit of a number below sixteen. -/
def hexDigit (n : Nat) : Char := Nat.digitChar n

/-- The characters that stand for one character inside a string literal. -/
def escape (c : Char) : List Char :=
  if c = '"' then ['\\', '"']
  else if c = '\\' then ['\\', '\\']
  else if c = '\n' then ['\\', 'n']
  else if c = '\r' then ['\\', 'r']
  else if c = '\t' then ['\\', 't']
  else if c = '\x08' then ['\\', 'b']
  else if c = '\x0c' then ['\\', 'f']
  else if c.toNat < 0x20 then
    ['\\', 'u', '0', '0', hexDigit (c.toNat / 16), hexDigit (c.toNat % 16)]
  else [c]

/-- The characters of a string literal, quotes included. -/
def quoteChars (s : String) : List Char := '"' :: s.toList.flatMap escape ++ ['"']

/-- A string literal. -/
def quote (s : String) : String := String.ofList (quoteChars s)

/-! ### Values -/

mutual

/-- The characters of a value. -/
def chars : Json → List Char
  | .null => "null".toList
  | .bool true => "true".toList
  | .bool false => "false".toList
  | .number literal => literal.toList
  | .string text => quoteChars text
  | .array items => '[' :: itemChars items ++ [']']
  | .object fields => '\x7b' :: fieldChars fields ++ ['\x7d']

/-- The items of an array, with a comma between two of them. -/
def itemChars : List Json → List Char
  | [] => []
  | [item] => item.chars
  | item :: next :: items => item.chars ++ ',' :: itemChars (next :: items)

/-- The fields of an object, with a comma between two of them. -/
def fieldChars : List (String × Json) → List Char
  | [] => []
  | [(key, value)] => quoteChars key ++ ':' :: value.chars
  | (key, value) :: next :: fields =>
    quoteChars key ++ ':' :: value.chars ++ ',' :: fieldChars (next :: fields)

end

/-- The compact text of a value. -/
def render (value : Json) : String := String.ofList value.chars

end Json

end HotReload
