/-!
# Texts

What all readers of texts share: the blanks around a text, the decimal numbers in it, and the pieces
between its separators.

* `isBlank`: the Unicode property `White_Space`; `trim` drops blanks at both ends of a text.
* `digits?` reads decimal digits and nothing else; `natural?` lets a plus sign stand before them.
* `split` cuts a text at every separator; `splice` puts pieces together with a separator between
  them.
-/

namespace HotReload.Text

/-! ### Blanks and letters -/

/-- The characters with the Unicode property `White_Space`. -/
def isBlank (c : Char) : Bool :=
  ('\t' ≤ c && c ≤ '\r') || c = ' ' || c = '\u0085' || c = '\u00a0' || c = '\u1680' ||
  ('\u2000' ≤ c && c ≤ '\u200a') || c = '\u2028' || c = '\u2029' || c = '\u202f' ||
  c = '\u205f' || c = '\u3000'

/-- Drops the characters of a class at the front of a text. -/
def trimStartBy (drop : Char → Bool) (s : String) : String :=
  String.ofList (s.toList.dropWhile drop)

/-- Drops the characters of a class at both ends of a text. -/
def trimBy (drop : Char → Bool) (s : String) : String :=
  String.ofList (((s.toList.dropWhile drop).reverse.dropWhile drop).reverse)

/-- Drops blanks at both ends of a text. -/
def trim (s : String) : String := trimBy isBlank s

/-- Lower case for the letters of ASCII; all else stays. -/
def asciiLower (s : String) : String := String.ofList (s.toList.map Char.toLower)

/-! ### Natural numbers -/

/-- The number that decimal digits spell; there has to be one at least. -/
def digits? (cs : List Char) : Option Nat :=
  if cs.isEmpty || !cs.all Char.isDigit then none
  else some (cs.foldl (fun n d => 10 * n + (d.toNat - '0'.toNat)) 0)

/-- The number that decimal digits spell, behind a plus sign perhaps. -/
def natural? : List Char → Option Nat
  | '+' :: ds => digits? ds
  | ds => digits? ds

/-! ### Separators -/

/-- The pieces of a list of characters between the separators; there is always at least one. -/
def splitChars (sep : Char) : List Char → List (List Char)
  | [] => [[]]
  | c :: cs =>
    if c = sep then [] :: splitChars sep cs
    else match splitChars sep cs with
      | [] => [[c]]
      | piece :: pieces => (c :: piece) :: pieces

theorem splitChars_ne_nil (sep : Char) (cs : List Char) : splitChars sep cs ≠ [] := by
  cases cs with
  | nil => simp [splitChars]
  | cons c cs => simp only [splitChars]; split; · simp
                 split <;> simp

/-- The pieces with the separator between them. -/
def spliceChars (sep : Char) : List (List Char) → List Char
  | [] => []
  | [piece] => piece
  | piece :: pieces => piece ++ sep :: spliceChars sep pieces

/-- The pieces of a text between the separators. -/
def split (sep : Char) (s : String) : List String := (splitChars sep s.toList).map String.ofList

/-- The pieces with the separator between them. -/
def splice (sep : Char) (pieces : List String) : String :=
  String.ofList (spliceChars sep (pieces.map String.toList))

/-- Splits a text at the first separator, where it has one. -/
def splitFirst? (sep : Char) (s : String) : Option (String × String) :=
  match s.toList.dropWhile (· ≠ sep) with
  | [] => none
  | _ :: rest => some (String.ofList (s.toList.takeWhile (· ≠ sep)), String.ofList rest)

end HotReload.Text
