/-!
# The shortest decimal of a binary64 number

A finite double is `m · 2^q`. The reals that round to it are an interval around it, its ends
included exactly when `m` is even. `shortest` takes the first of the decimal grids with 1, 2, … 17
digits that has a point in the interval, and of two such points the nearer; an exact tie goes to the
even digit.
-/

namespace HotReload

/-- A decimal `digits · 10^exponent`. -/
structure Decimal where
  digits : Nat
  exponent : Int
  deriving DecidableEq, Inhabited

namespace Decimal

/-- A positive double as mantissa and exponent. `narrow` says that the next lower double is only
half as far away as the next higher one. -/
structure Binary where
  mantissa : Nat
  exponent : Int
  narrow : Bool
  deriving DecidableEq

/-- Reads mantissa and exponent off the bits of a finite number other than zero. -/
def Binary.ofBits (bits : UInt64) : Binary :=
  let fraction := (bits &&& 0xFFFFFFFFFFFFF).toNat
  let biased := ((bits >>> 52) &&& 0x7FF).toNat
  if biased = 0 then ⟨fraction, -1074, false⟩
  else ⟨fraction + 0x10000000000000, (biased : Int) - 1075, fraction = 0 && biased > 1⟩

/-- `10^k`, or one for a negative `k`. -/
def tens (k : Int) : Nat := Nat.pow 10 k.toNat

/-- `a · 2^e` and `b · 10^k` over one denominator, as two naturals that compare as they do. -/
def scale (a : Nat) (e : Int) (b : Nat) (k : Int) : Nat × Nat :=
  ((a * tens (-k)) <<< e.toNat, (b * tens k) <<< (-e).toNat)

/-- Whether `b · 10^k` rounds to the double. -/
def Binary.covers (x : Binary) (b : Nat) (k : Int) : Bool :=
  let quarter := x.exponent - 2
  let low := 4 * x.mantissa - (if x.narrow then 1 else 2)
  let high := 4 * x.mantissa + 2
  let (l, v) := scale low quarter b k
  let (h, v') := scale high quarter b k
  if x.mantissa % 2 = 0 then l ≤ v && v' ≤ h else l < v && v' < h

/-- The double's value on the grid of multiples of `10^k`, rounded down. -/
def Binary.floorAt (x : Binary) (k : Int) : Nat :=
  ((x.mantissa * tens (-k)) <<< x.exponent.toNat) / (tens k <<< (-x.exponent).toNat)

/-- The point of the grid of multiples of `10^k` that rounds to the double, the nearer of two. -/
def Binary.onGrid? (x : Binary) (k : Int) : Option Decimal :=
  let down := x.floorAt k
  let up := down + 1
  match down ≠ 0 && x.covers down k, x.covers up k with
  | false, false => none
  | true, false => some ⟨down, k⟩
  | false, true => some ⟨up, k⟩
  | true, true =>
    let (twice, middle) := scale (2 * x.mantissa) x.exponent (down + up) k
    if twice < middle then some ⟨down, k⟩
    else if middle < twice then some ⟨up, k⟩
    else if down % 2 = 0 then some ⟨down, k⟩ else some ⟨up, k⟩

/-- The exponent of the leading digit: the greatest `k` from `start` downwards with `10^k` not above
the double. -/
def Binary.leading (x : Binary) (start : Int) : Nat → Int
  | 0 => start
  | fuel + 1 => if x.floorAt start = 0 then x.leading (start - 1) fuel else start

/-- Tries the grids with `digits`, `digits + 1`, … digits. -/
def Binary.search (x : Binary) (lead : Int) (digits : Nat) : Nat → Decimal
  | 0 => ⟨x.floorAt (lead + 1 - digits), lead + 1 - digits⟩
  | fuel + 1 =>
    match x.onGrid? (lead + 1 - digits) with
    | some d => d
    | none => x.search lead (digits + 1) fuel

/-- Drops the zeros at the end of the digits. -/
def trim (d : Decimal) : Nat → Decimal
  | 0 => d
  | fuel + 1 =>
    if d.digits ≠ 0 ∧ d.digits % 10 = 0 then trim ⟨d.digits / 10, d.exponent + 1⟩ fuel
    else d

/-- The fewest digits that read back as the double with these bits; the sign is left out. -/
def shortest (bits : UInt64) : Decimal :=
  let bits := bits &&& 0x7FFFFFFFFFFFFFFF
  if bits = 0 then ⟨0, 0⟩
  else
    let x := Binary.ofBits bits
    (x.search (x.leading 308 640) 1 17).trim 20

end Decimal

end HotReload
