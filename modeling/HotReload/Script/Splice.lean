import HotReload.Script.Imports

/-!
# Putting numbers in for literals

A splice replaces spans of a source text and keeps every other character where it was. Spans are
counted in bytes.

* `splitBytes`: a text cut after so many bytes; the cut loses nothing (`splitBytes_append`), and
  where characters end there it is the cut behind them (`splitBytes_left`).
* `splice`: the text with its spans replaced.
-/

namespace HotReload.Script

/-- What is to stand in a span. -/
structure Patch where
  /-- The first byte of the span. -/
  start : Nat
  /-- The byte behind the span. -/
  stop : Nat
  text : String
  deriving DecidableEq, Inhabited

/-- Cuts a text after `n` bytes, and before a character that they do not hold whole. -/
def splitBytes : Nat → List Char → List Char × List Char
  | _, [] => ([], [])
  | n, c :: cs =>
    if c.utf8Size ≤ n then
      let (front, back) := splitBytes (n - c.utf8Size) cs
      (c :: front, back)
    else ([], c :: cs)

theorem splitBytes_append (n : Nat) (cs : List Char) :
    (splitBytes n cs).1 ++ (splitBytes n cs).2 = cs := by
  fun_induction splitBytes n cs <;> simp_all

/-- A cut behind so many bytes as a list of characters takes is a cut behind that list. -/
theorem splitBytes_left (front back : List Char) :
    splitBytes (String.ofList front).utf8ByteSize (front ++ back) = (front, back) := by
  induction front with
  | nil =>
    cases back with
    | nil => rfl
    | cons c cs => simp [splitBytes, Nat.ne_of_gt c.utf8Size_pos]
  | cons c cs ih => simp [splitBytes, ih]

/-- Replaces spans in the part of a text that starts at byte `at_`; spans are disjoint and
ascend. -/
def spliceFrom (at_ : Nat) (cs : List Char) : List Patch → List Char
  | [] => cs
  | p :: ps =>
    let (kept, rest) := splitBytes (p.start - at_) cs
    let (_, rest) := splitBytes (p.stop - p.start) rest
    kept ++ p.text.toList ++ spliceFrom p.stop rest ps

/-- Replaces spans in a text. -/
def splice (source : String) (patches : List Patch) : String :=
  String.ofList (spliceFrom 0 source.toList patches)

end HotReload.Script
