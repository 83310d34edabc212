import HotReload.Script.Source

/-!
# Tokens

A token is a class with a span of character indices. Words and marks are kept by their text: which
words are reserved is for the grammar to say.
-/

namespace HotReload.Script

/-- The class of a token. -/
inductive TokenClass where
  | eof
  /-- An identifier or keyword; `escaped` says that it was written with an escape. -/
  | word (text : String) (escaped : Bool)
  /-- `#name` -/
  | hashWord (text : String)
  /-- A string literal, with the text it stands for. -/
  | string (value : String)
  | number
  | regex
  /-- A piece of a template up to its end or to a hole. `sound` says that its escapes are good. -/
  | template (last : Bool) (sound : Bool)
  /-- The text between markup tags. -/
  | markupText
  /-- A punctuator. -/
  | mark (text : String)
  deriving DecidableEq, Inhabited

/-- A token of a source text. -/
structure Token where
  cls : TokenClass
  start : Nat
  stop : Nat
  /-- Whether a line ends between the previous token and this one. -/
  newline : Bool
  /-- The first comment between the previous token and this one. -/
  comment : Option (Nat × Nat) := none
  deriving Inhabited

namespace Token

/-- The text of an unescaped or escaped word. -/
def word? (t : Token) : Option String :=
  match t.cls with
  | .word text _ => some text
  | _ => none

/-- Whether the token is the given word, written without escapes. -/
def isWord (t : Token) (text : String) : Bool := t.cls = .word text false

/-- Whether the token is the given punctuator. -/
def isMark (t : Token) (text : String) : Bool := t.cls = .mark text

/-- The first character of a punctuator as a token of its own. -/
def firstMark (t : Token) : Token :=
  match t.cls with
  | .mark text => { t with cls := .mark (String.ofList (text.toList.take 1)), stop := t.start + 1 }
  | _ => t

end Token

/-! ### Words -/

/-- The words that are never identifiers. -/
def reservedWords : List String :=
  ["break", "case", "catch", "class", "const", "continue", "debugger", "default", "delete", "do",
   "else", "enum", "export", "extends", "false", "finally", "for", "function", "if", "import", "in",
   "instanceof", "new", "null", "return", "super", "switch", "this", "throw", "true", "try",
   "typeof", "var", "void", "while", "with"]

/-- Whether a word is never an identifier. -/
def isReserved (word : String) : Bool := reservedWords.contains word

/-- The punctuators, longer ones before those they begin with. -/
def marks : List String :=
  [">>>=", "...", "<<=", ">>=", ">>>", "===", "!==", "**=", "&&=", "||=", "??=",
   "<<", "<=", ">>", ">=", "==", "=>", "!=", "++", "+=", "--", "-=", "**", "*=", "%=", "&&", "&=",
   "||", "|=", "^=", "?.", "??", "/=",
   "\x7b", "\x7d", "(", ")", "[", "]", ".", ";", ",", "<", ">", "=", "!", "+", "-", "*", "%", "&",
   "|", "^", "~", "?", ":", "@", "/"]

/-- The marks with their characters. -/
def markChars : List (String × List Char) := marks.map fun m => (m, m.toList)

end HotReload.Script
