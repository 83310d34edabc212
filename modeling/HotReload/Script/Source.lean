import HotReload.Path

/-!
# Source texts and their dialects

A source text is read by character index; its spans are given in bytes of its UTF-8 encoding. The
extension of its file says which dialect it is written in.

* `Dialect.ofPath`: the dialect of a file.
* `Source.byteOffset`, `Source.lineAt`: where a character index lies.
-/

namespace HotReload.Script

/-- What a source text may hold. -/
structure Dialect where
  /-- Type annotations. -/
  typed : Bool := false
  /-- Markup elements. -/
  markup : Bool := false
  /-- Declarations alone, without code. -/
  declarations : Bool := false
  /-- Whether the text is a module rather than a script. -/
  strict : Bool := true
  deriving DecidableEq, Inhabited

/-- Whether the file name of a typed source says that it holds declarations alone: the last or the
last but one of its dotted parts before `.ts` is `d`. -/
def isDeclarationName (name : String) : Bool :=
  match (Text.split '.' name).reverse with
  | "ts" :: parts => (parts.take 2).contains "d"
  | "mts" :: part :: _ => part = "d"
  | "cts" :: part :: _ => part = "d"
  | _ => false

/-- The dialect of a file, by its extension; an unknown one is read as a plain module. -/
def Dialect.ofPath (p : Path) : Dialect :=
  let declarations := (p.fileName?.map isDeclarationName).getD false
  match p.extension? with
  | some "cjs" => { strict := false }
  | some "jsx" => { markup := true }
  | some "ts" | some "mts" => { typed := true, declarations }
  | some "cts" => { typed := true, declarations, strict := false }
  | some "tsx" => { typed := true, markup := true }
  | _ => {}

/-- A source text. -/
structure Source where
  chars : Array Char
  dialect : Dialect

namespace Source

/-- The source with a text. -/
def ofText (dialect : Dialect) (text : String) : Source := ⟨text.toList.toArray, dialect⟩

/-- The number of characters. -/
def size (s : Source) : Nat := s.chars.size

/-- The character at an index; U+0000 behind the end. -/
def at_ (s : Source) (i : Nat) : Char := s.chars.getD i '\x00'

/-- Whether an index lies behind the last character. -/
def isEnd (s : Source) (i : Nat) : Bool := s.size ≤ i

/-- Whether the given characters stand at an index. -/
def hasAt (s : Source) (i : Nat) : List Char → Bool
  | [] => true
  | c :: cs => !s.isEnd i && s.at_ i = c && s.hasAt (i + 1) cs

/-- The characters between two indices. -/
def slice (s : Source) (start stop : Nat) : List Char := (s.chars.extract start stop).toList

/-- The number of bytes before a character index. -/
def byteOffset (s : Source) (i : Nat) : Nat :=
  (String.ofList (s.slice 0 i)).utf8ByteSize

/-- The line of a character index, from one. -/
def lineAt (s : Source) (i : Nat) : Nat := (s.slice 0 i).count '\n' + 1

/-- The least index from `i` on whose character does not satisfy `p`; `fuel` bounds the distance. -/
def skipWhile (s : Source) (p : Char → Bool) : Nat → Nat → Nat
  | 0, i => i
  | fuel + 1, i => if !s.isEnd i && p (s.at_ i) then s.skipWhile p fuel (i + 1) else i

/-- The least index from `i` on whose character does not satisfy `p`. -/
def skip (s : Source) (p : Char → Bool) (i : Nat) : Nat := s.skipWhile p (s.size - i) i

end Source

end HotReload.Script
