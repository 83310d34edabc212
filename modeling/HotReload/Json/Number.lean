import HotReload.Decimal.Shortest

/-!
# JSON number literals

A literal is an integer when it has neither fraction nor exponent. `Number.canonical?` is the text a
literal is written back with: integers of 64 bits as they are, all else as a binary64 number in its
shortest form. It is `none` where the number is out of range.
-/

namespace HotReload.Json

/-- The parts of a number literal. -/
structure Number where
  negative : Bool
  /-- The digits before the point. -/
  whole : List Char
  /-- The digits after the point, where there is one. -/
  fraction : Option (List Char)
  /-- Whether the exponent is negative, and its digits, where there is one. -/
  exponent : Option (Bool × List Char)

namespace Number

/-- Takes the sign off an exponent. -/
def splitSign : List Char → Bool × List Char
  | '-' :: ds => (true, ds)
  | '+' :: ds => (false, ds)
  | ds => (false, ds)

/-- The parts of a well-formed literal. -/
def ofLiteral (literal : String) : Number :=
  let cs := literal.toList
  let negative := cs.head? = some '-'
  let body := if negative then cs.drop 1 else cs
  let whole := body.takeWhile Char.isDigit
  let rest := body.dropWhile Char.isDigit
  let fraction :=
    if rest.head? = some '.' then some ((rest.drop 1).takeWhile Char.isDigit) else none
  let rest := if rest.head? = some '.' then (rest.drop 1).dropWhile Char.isDigit else rest
  let exponent := match rest with
    | [] => none
    | _ :: ds => some (splitSign ds)
  ⟨negative, whole, fraction, exponent⟩

/-- The value of a digit. -/
def digit (c : Char) : Nat := c.toNat - '0'.toNat

/-- The number that a list of digits spells. -/
def ofDigits (ds : List Char) : Nat := ds.foldl (fun n c => 10 * n + digit c) 0

/-- The literal as an integer, where it is one; `-0` is none. -/
def integer? (n : Number) : Option Int :=
  match n.fraction, n.exponent with
  | none, none =>
    let magnitude := ofDigits n.whole
    if n.negative then (if magnitude = 0 then none else some (-(magnitude : Int)))
    else some magnitude
  | _, _ => none

/-- The integer literals below `2^bits`, which is all that an unsigned word admits. -/
def unsigned? (bits : Nat) (literal : String) : Option Nat :=
  match (ofLiteral literal).integer? with
  | some (.ofNat n) => if n < 1 <<< bits then some n else none
  | _ => none

/-- Takes digits into a 64-bit significand while they fit; gives the significand and how many were
taken. -/
def gather (significand : Nat) (taken : Nat) : List Char → Nat × Nat
  | [] => (significand, taken)
  | d :: ds =>
    let next := 10 * significand + digit d
    if next < UInt64.size then gather next (taken + 1) ds else (significand, taken)

/-- The literal's leading digits as a 64-bit significand, with the power of ten that scales it;
digits beyond the significand count by their place alone. -/
def parts (n : Number) : Nat × Int :=
  let (whole, taken) := gather 0 0 n.whole
  let (significand, after) := gather whole 0 (n.fraction.getD [])
  let shift : Int := (n.whole.length - taken : Nat) - after
  match n.exponent with
  | none => (significand, shift)
  | some (true, ds) => (significand, shift - ofDigits ds)
  | some (false, ds) => (significand, shift + ofDigits ds)

/-- `significand · 10^exponent` in binary64, by one rounded multiplication or by rounded
divisions. -/
def scaled? (significand : Nat) (exponent : Int) : Option Float :=
  let f := significand.toUInt64.toFloat
  if exponent ≥ 0 then
    if exponent ≤ 308 then
      let g := f * Float.ofScientific 1 false exponent.toNat
      if g.isInf then none else some g
    else if f == 0.0 then some f else none
  else
    let down := (-exponent).toNat
    if down ≤ 308 then some (f / Float.ofScientific 1 false down)
    else
      let f := f / 1e308
      if down ≤ 616 then some (f / Float.ofScientific 1 false (down - 308)) else some 0.0

/-- Zeros. -/
def zeros (n : Nat) : String := String.ofList (List.replicate n '0')

/-- A decimal in positional notation from `1e-5` up to below `1e16`, with at least one digit after
the point, and in scientific notation outside, where the exponent has a sign. -/
def layout (d : Decimal) : String :=
  let ds := (toString d.digits).toList
  let point : Int := ds.length + d.exponent
  if 0 ≤ d.exponent && point ≤ 16 then
    String.ofList ds ++ zeros d.exponent.toNat ++ ".0"
  else if 0 < point && point ≤ 16 then
    String.ofList (ds.take point.toNat) ++ "." ++ String.ofList (ds.drop point.toNat)
  else if -5 < point && point ≤ 0 then
    "0." ++ zeros (-point).toNat ++ String.ofList ds
  else
    let mantissa := match ds with
      | [d] => String.ofList [d]
      | d :: ds => String.ofList (d :: '.' :: ds)
      | [] => ""
    mantissa ++ (if point ≥ 1 then "e+" else "e") ++ toString (point - 1)

/-- The text of a finite float. -/
def floatText (negative : Bool) (f : Float) : String :=
  let body := if f == 0.0 then "0.0" else layout (Decimal.shortest f.toBits)
  if negative then "-" ++ body else body

/-- The text a literal is written back with, where it is in range. -/
def canonical? (literal : String) : Option String :=
  let n := ofLiteral literal
  match n.integer? with
  | some (.ofNat k) => if k < UInt64.size then some (toString k) else asFloat n
  | some (.negSucc k) => if 2 * k < UInt64.size then some ("-" ++ toString (k + 1)) else asFloat n
  | none => asFloat n
where
  /-- The literal as a float, written shortest. -/
  asFloat (n : Number) : Option String :=
    let (significand, exponent) := n.parts
    (scaled? significand exponent).map (floatText n.negative)

end Number

end HotReload.Json
