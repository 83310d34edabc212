import HotReload.Script.Letters
import HotReload.Script.Token
import HotReload.Json.Basic
import HotReload.Json.Reader

/-!
# Reading tokens

`Lexer.token` reads the token at an index of a source text. What a character begins depends on the
grammar in four places, so there are readers of their own for what the grammar expects there:
regular expressions, the continuation of a template, and text and names of markup.

A fault is the index of the character it is reported at.
-/

namespace HotReload.Script.Lexer

/-- Where reading a token failed. -/
abbrev Fault := Nat

/-- Whether a character ends a line. -/
def isLineEnd (c : Char) : Bool := c = '\n' || c = '\r' || c = '\u2028' || c = '\u2029'

/-- Whether a character is blank within a line. -/
def isLineBlank (c : Char) : Bool :=
  c = ' ' || c = '\t' || c = '\x0b' || c = '\x0c' || c = '\u00a0' || c = '\ufeff' ||
  c = '\u1680' || ('\u2000' ≤ c && c ≤ '\u200a') || c = '\u202f' || c = '\u205f' || c = '\u3000'

/-! ### Blanks and comments -/

/-- The index behind the next star and slash, with whether a line ends before it. -/
def blockCommentEnd (s : Source) : Nat → Nat → Bool → Option (Nat × Bool)
  | 0, _, _ => none
  | fuel + 1, i, newline =>
    if s.isEnd i then none
    else if s.hasAt i ['*', '/'] then some (i + 2, newline)
    else blockCommentEnd s fuel (i + 1) (newline || isLineEnd (s.at_ i))

/-- What lies between two tokens. -/
structure Gap where
  /-- The index of the next token. -/
  stop : Nat
  newline : Bool
  /-- The first comment. -/
  comment : Option (Nat × Nat)

/-- Skips blanks and comments; `fuel` bounds their number. -/
def gap (s : Source) : Nat → Gap → Except Fault Gap
  | 0, g => .ok g
  | fuel + 1, g =>
    let i := g.stop
    let lineComment := fun (start : Nat) =>
      let stop := s.skip (fun c => !isLineEnd c) start
      gap s fuel { g with stop, comment := g.comment <|> some (i, stop) }
    if s.isEnd i then .ok g
    else if isLineEnd (s.at_ i) then gap s fuel { g with stop := i + 1, newline := true }
    else if isLineBlank (s.at_ i) then gap s fuel { g with stop := i + 1 }
    else if s.hasAt i ['/', '/'] then lineComment (i + 2)
    else if s.hasAt i ['/', '*'] then
      match blockCommentEnd s (s.size - i) (i + 2) false with
      | none => .error i
      | some (stop, ends) =>
        gap s fuel
          { stop, newline := g.newline || ends, comment := g.comment <|> some (i, stop) }
    else if !s.dialect.strict && s.hasAt i ['<', '!', '-', '-'] then lineComment (i + 4)
    else if !s.dialect.strict && (g.newline || i = 0) && s.hasAt i ['-', '-', '>'] then
      lineComment (i + 3)
    else .ok g

/-! ### Escapes -/

/-- The number that the hexadecimal digits from `i` up to `stop` spell. -/
def hexNumber? (s : Source) (i stop : Nat) : Option Nat :=
  if stop ≤ i ∨ s.size < stop then none
  else (s.slice i stop).foldlM (fun n c => (Json.hexValue? c).map (16 * n + ·)) 0

/-- The code point behind `\u`, with the index after it. -/
def unicodeEscape? (s : Source) (i : Nat) : Option (Nat × Nat) :=
  if s.at_ i = '\x7b' then
    let stop := s.skip (fun c => (Json.hexValue? c).isSome) (i + 1)
    match hexNumber? s (i + 1) stop with
    | some n => if n ≤ 0x10FFFF ∧ s.at_ stop = '\x7d' then some (n, stop + 1) else none
    | none => none
  else (hexNumber? s i (i + 4)).map fun n => (n, i + 4)

/-- A code point behind `\u`, where a pair of surrogates is one. -/
def unicodePair? (s : Source) (i : Nat) : Option (Nat × Nat) :=
  match unicodeEscape? s i with
  | none => none
  | some (n, j) =>
    if Json.isLeading n ∧ s.at_ i ≠ '\x7b' ∧ s.hasAt j ['\\', 'u'] ∧ s.at_ (j + 2) ≠ '\x7b' then
      match unicodeEscape? s (j + 2) with
      | some (low, k) =>
        if Json.isTrailing low then
          some (0x10000 + (n - 0xD800) * 0x400 + (low - 0xDC00), k)
        else some (n, j)
      | none => some (n, j)
    else some (n, j)

/-- What an escape in a string stands for. -/
inductive Escaped where
  /-- Code points. -/
  | points (ns : List Nat)
  | bad

/-- Whether a character is an octal digit. -/
def isOctal (c : Char) : Bool := '0' ≤ c && c ≤ '7'

/-- The number of octal digits that an escape takes, at most three and below 256. -/
def octalLength (s : Source) (i : Nat) : Nat :=
  if !isOctal (s.at_ (i + 1)) then 1
  else if s.at_ i ≤ '3' && isOctal (s.at_ (i + 2)) then 3
  else 2

/-- What the escape behind a backslash stands for, with the index after it. -/
def escape (s : Source) (i : Nat) : Escaped × Nat :=
  let one := fun n => (Escaped.points [n], i + 1)
  match s.at_ i with
  | 'n' => one 0x0A
  | 't' => one 0x09
  | 'r' => one 0x0D
  | 'b' => one 0x08
  | 'v' => one 0x0B
  | 'f' => one 0x0C
  | '\r' => (.points [], if s.at_ (i + 1) = '\n' then i + 2 else i + 1)
  | 'x' =>
    match hexNumber? s (i + 1) (i + 3) with
    | some n => (.points [n], i + 3)
    | none => (.bad, i + 1)
  | 'u' =>
    match unicodePair? s (i + 1) with
    | some (n, j) => (.points [n], j)
    | none => (.bad, i + 1)
  | c =>
    if isLineEnd c then (.points [], i + 1)
    else if isOctal c then
      let stop := i + octalLength s i
      (.points [(s.slice i stop).foldl (fun n d => 8 * n + (d.toNat - '0'.toNat)) 0], stop)
    else one c.toNat

/-- Whether a code point is half of a surrogate pair. -/
def isSurrogate (n : Nat) : Bool := Json.isLeading n || Json.isTrailing n

/-- Four lower-case hexadecimal digits. -/
def hex4 (n : Nat) : List Char :=
  [n / 0x1000 % 16, n / 0x100 % 16, n / 0x10 % 16, n % 16].map Json.hexDigit

/-- The text of a list of code points. Where a lone surrogate is among them, it and every U+FFFD are
written as U+FFFD and four digits. -/
def textOf (points : List Nat) : String :=
  if points.any isSurrogate then
    String.ofList <| points.flatMap fun n =>
      if isSurrogate n then '\ufffd' :: hex4 n
      else if n = 0xFFFD then '\ufffd' :: hex4 n
      else [Char.ofNat n]
  else String.ofList (points.map Char.ofNat)

/-! ### Strings, templates and regular expressions -/

/-- The code points of a string up to its closing quote, with the index after it. `start` is where
the literal begins. -/
def stringBody (s : Source) (start : Nat) (quote : Char) :
    Nat → Nat → List Nat → Except Fault (List Nat × Nat)
  | 0, _, _ => .error start
  | fuel + 1, i, points =>
    if s.isEnd i then .error start
    else
      let c := s.at_ i
      if c = quote then .ok (points.reverse, i + 1)
      else if c = '\n' ∨ c = '\r' then .error start
      else if c = '\\' then
        if s.isEnd (i + 1) then .error start
        else match escape s (i + 1) with
          | (.bad, _) => .error i
          | (.points ns, j) => stringBody s start quote fuel j (ns.reverse ++ points)
      else stringBody s start quote fuel (i + 1) (c.toNat :: points)

/-- The end of a piece of a template: the index after it, whether the template ends there, and
whether all its escapes were good. -/
def templateBody (s : Source) (start : Nat) : Nat → Nat → Bool → Except Fault (Nat × Bool × Bool)
  | 0, _, _ => .error start
  | fuel + 1, i, sound =>
    if s.isEnd i then .error start
    else
      let c := s.at_ i
      if c = '\x60' then .ok (i + 1, true, sound)
      else if s.hasAt i ['$', '\x7b'] then .ok (i + 2, false, sound)
      else if c = '\\' then
        let digit := (s.at_ (i + 1)).isDigit && !(s.at_ (i + 1) = '0' && !(s.at_ (i + 2)).isDigit)
        match escape s (i + 1) with
        | (.bad, j) => templateBody s start fuel j false
        | (.points _, j) =>
          if digit then templateBody s start fuel (i + 2) false
          else templateBody s start fuel j sound
      else templateBody s start fuel (i + 1) sound

/-- The index of the slash that ends a regular expression; `inClass` says that a class is open. -/
def regexBody (s : Source) (start : Nat) : Nat → Nat → Bool → Except Fault Nat
  | 0, _, _ => .error start
  | fuel + 1, i, inClass =>
    if s.isEnd i ∨ isLineEnd (s.at_ i) then .error start
    else
      let c := s.at_ i
      if c = '\\' then
        if s.isEnd (i + 1) ∨ isLineEnd (s.at_ (i + 1)) then .error start
        else regexBody s start fuel (i + 2) inClass
      else if c = '/' ∧ !inClass then .ok i
      else if c = '[' then regexBody s start fuel (i + 1) true
      else if c = ']' then regexBody s start fuel (i + 1) false
      else regexBody s start fuel (i + 1) inClass

/-- The first flag of a regular expression that is unknown or comes twice. -/
def badFlag (s : Source) (seen : List Char) : Nat → Nat → Nat → Option Nat
  | 0, _, _ => none
  | fuel + 1, i, stop =>
    if stop ≤ i then none
    else
      let c := s.at_ i
      if ['d', 'g', 'i', 'm', 's', 'u', 'v', 'y'].contains c ∧ !seen.contains c then
        badFlag s (c :: seen) fuel (i + 1) stop
      else some i

/-! ### Numbers -/

/-- The end of digits with single underscores between them, where they are well formed. -/
def digits (s : Source) (isDigit : Char → Bool) (i : Nat) : Except Fault Nat :=
  if !isDigit (s.at_ i) then .error i
  else
    let stop := s.skip (fun c => isDigit c || c = '_') i
    let text := s.slice i stop
    if text.getLast? = some '_' then .error stop
    else if (text.zip (text.drop 1)).any fun (a, b) => a = '_' && b = '_' then .error i
    else .ok stop

/-- Whether a character is a hexadecimal digit. -/
def isHex (c : Char) : Bool := (Json.hexValue? c).isSome

/-- The end of an exponent, where there is one. -/
def exponent (s : Source) (i : Nat) : Except Fault Nat :=
  if s.at_ i = 'e' ∨ s.at_ i = 'E' then
    digits s Char.isDigit (if s.at_ (i + 1) = '+' ∨ s.at_ (i + 1) = '-' then i + 2 else i + 1)
  else .ok i

/-- The end of a number literal. -/
def numberEnd (s : Source) (i : Nat) : Except Fault Nat :=
  let c := s.at_ i
  let d := s.at_ (i + 1)
  let big := fun stop => if s.at_ stop = 'n' then stop + 1 else stop
  if c = '0' ∧ (d = 'x' ∨ d = 'X') then (digits s isHex (i + 2)).map big
  else if c = '0' ∧ (d = 'b' ∨ d = 'B') then
    (digits s (fun c => c = '0' || c = '1') (i + 2)).map big
  else if c = '0' ∧ (d = 'o' ∨ d = 'O') then (digits s isOctal (i + 2)).map big
  else if c = '0' ∧ d.isDigit then do
    let stop := s.skip Char.isDigit i
    if (s.slice i stop).all isOctal then pure stop
    else if s.at_ stop = '.' then exponent s (s.skip Char.isDigit (stop + 1))
    else exponent s stop
  else if c = '0' ∧ d = '_' then .error (i + 1)
  else if c = '.' then do
    let stop ← digits s Char.isDigit (i + 1)
    exponent s stop
  else do
    let stop ← digits s Char.isDigit i
    if s.at_ stop = 'n' then pure (stop + 1)
    else if s.at_ stop = '.' then
      if (s.at_ (stop + 1)).isDigit then
        let stop ← digits s Char.isDigit (stop + 1)
        exponent s stop
      else if s.at_ (stop + 1) = '_' then .error (stop + 1)
      else exponent s (stop + 1)
    else exponent s stop

/-! ### Words -/

/-- The characters of a word from an index on, the index after it, and whether it holds escapes. -/
def wordBody (s : Source) : Nat → Nat → List Char → Bool → Except Fault (List Char × Nat × Bool)
  | 0, i, cs, escaped => .ok (cs.reverse, i, escaped)
  | fuel + 1, i, cs, escaped =>
    let fits := if cs.isEmpty then isNameStart else isNamePart
    if s.isEnd i then .ok (cs.reverse, i, escaped)
    else if s.at_ i = '\\' then
      if s.at_ (i + 1) ≠ 'u' then .error i
      else match unicodeEscape? s (i + 2) with
        | some (n, j) =>
          let c := Char.ofNat n
          if !isSurrogate n && fits c then wordBody s fuel j (c :: cs) true else .error i
        | none => .error i
    else if fits (s.at_ i) then wordBody s fuel (i + 1) (s.at_ i :: cs) escaped
    else .ok (cs.reverse, i, escaped)

/-- The word at an index. -/
def wordAt (s : Source) (i : Nat) : Except Fault (List Char × Nat × Bool) :=
  match wordBody s (s.size - i + 1) i [] false with
  | .ok ([], _, _) => .error i
  | r => r

/-! ### Tokens -/

/-- The class and the end of the token at an index that is neither blank nor a comment. -/
def classify (s : Source) (i : Nat) : Except Fault (TokenClass × Nat) :=
  if s.isEnd i then .ok (.eof, i)
  else
    let c := s.at_ i
    if c = '"' ∨ c = '\x27' then do
      let (points, stop) ← stringBody s i c (s.size - i) (i + 1) []
      .ok (.string (textOf points), stop)
    else if c = '\x60' then do
      let (stop, last, sound) ← templateBody s i (s.size - i) (i + 1) true
      .ok (.template last sound, stop)
    else if c.isDigit ∨ (c = '.' ∧ (s.at_ (i + 1)).isDigit) then do
      let stop ← numberEnd s i
      if isNamePart (s.at_ stop) ∨ s.at_ stop = '\\' then .error stop
      else .ok (.number, stop)
    else if c = '#' then do
      let (text, stop, _) ← wordAt s (i + 1)
      .ok (.hashWord (String.ofList text), stop)
    else if isNameStart c ∨ c = '\\' then do
      let (text, stop, escaped) ← wordAt s i
      .ok (.word (String.ofList text) escaped, stop)
    else match markChars.find? fun m => s.hasAt i m.2 with
      | some (text, cs) =>
        if text = "?." ∧ (s.at_ (i + 2)).isDigit then .ok (.mark "?", i + 1)
        else .ok (.mark text, i + cs.length)
      | none => .error i

/-- The token that follows an index. -/
def token (s : Source) (i : Nat) : Except Fault Token := do
  let g ← gap s (s.size - i + 1) ⟨i, false, none⟩
  let (cls, stop) ← classify s g.stop
  .ok ⟨cls, g.stop, stop, g.newline, g.comment⟩

/-- The regular expression that begins with the slash at an index. -/
def regexToken (s : Source) (t : Token) : Except Fault Token := do
  let slash ← regexBody s t.start (s.size - t.start) (t.start + 1) false
  let stop := s.skip isNamePart (slash + 1)
  match badFlag s [] (s.size - slash) (slash + 1) stop with
  | some i => .error i
  | none => .ok { t with cls := .regex, stop }

/-- The piece of a template that goes on after the brace at an index. -/
def templateToken (s : Source) (t : Token) : Except Fault Token := do
  let (stop, last, sound) ← templateBody s t.start (s.size - t.start) (t.start + 1) true
  .ok { t with cls := .template last sound, stop }

/-- The token that follows an index between markup tags: text, or the mark that ends it. -/
def markupChild (s : Source) (i : Nat) : Except Fault Token :=
  let mark := fun text => Except.ok ⟨TokenClass.mark text, i, i + 1, false, none⟩
  if s.isEnd i then .ok ⟨.eof, i, i, false, none⟩
  else match s.at_ i with
    | '<' => mark "<"
    | '\x7b' => mark "\x7b"
    | _ =>
      let stop := s.skip (fun c => !(['<', '\x7b', '>', '\x7d'].contains c)) i
      if s.at_ stop = '>' ∨ s.at_ stop = '\x7d' then .error stop
      else .ok ⟨.markupText, i, stop, false, none⟩

/-- A word of markup may go on with hyphens. -/
def markupWord (s : Source) (t : Token) : Token :=
  match t.cls with
  | .word text escaped =>
    let stop := s.skip (fun c => isNamePart c || c = '-') t.stop
    { t with cls := .word (text ++ String.ofList (s.slice t.stop stop)) escaped, stop }
  | _ => t

/-- The token that follows an index where the value of a markup attribute is expected: a string has
no escapes there and may run over lines. -/
def markupValue (s : Source) (i : Nat) : Except Fault Token := do
  let g ← gap s (s.size - i + 1) ⟨i, false, none⟩
  let c := s.at_ g.stop
  if !s.isEnd g.stop ∧ (c = '"' ∨ c = '\x27') then
    let stop := s.skip (· ≠ c) (g.stop + 1)
    if s.isEnd stop then .error g.stop
    else
      let text := String.ofList (s.slice (g.stop + 1) stop)
      .ok ⟨.string text, g.stop, stop + 1, g.newline, g.comment⟩
  else token s i

end HotReload.Script.Lexer
