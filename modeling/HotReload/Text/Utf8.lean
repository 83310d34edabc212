/-!
# Reading UTF-8 that may be broken

`decode` reads every well-formed character and puts U+FFFD in the place of what is not: one for the
longest beginning of a character, or for a byte that begins none.
-/

namespace HotReload.Text.Utf8

/-- How a character begins: its first bits, and the ranges that the bytes behind its first byte have
to lie in. -/
structure Lead where
  bits : Nat
  tails : List (UInt8 × UInt8)

/-- The usual range of a byte that does not begin a character. -/
def tail : UInt8 × UInt8 := (0x80, 0xBF)

/-- How the character begins that a byte may begin. -/
def lead? (byte : UInt8) : Option Lead :=
  if byte < 0x80 then some ⟨byte.toNat, []⟩
  else if byte < 0xC2 then none
  else if byte < 0xE0 then some ⟨byte.toNat - 0xC0, [tail]⟩
  else if byte = 0xE0 then some ⟨0, [(0xA0, 0xBF), tail]⟩
  else if byte = 0xED then some ⟨0xD, [(0x80, 0x9F), tail]⟩
  else if byte < 0xF0 then some ⟨byte.toNat - 0xE0, [tail, tail]⟩
  else if byte = 0xF0 then some ⟨0, [(0x90, 0xBF), tail, tail]⟩
  else if byte < 0xF4 then some ⟨byte.toNat - 0xF0, [tail, tail, tail]⟩
  else if byte = 0xF4 then some ⟨4, [(0x80, 0x8F), tail, tail]⟩
  else none

/-- What stands for a broken character. -/
def broken : Char := '\ufffd'

/-- Reads on in a character: `bits` are read, and bytes in the ranges are still to come. -/
def decodeTail : Nat → List (UInt8 × UInt8) → List UInt8 → List Char × List UInt8
  | bits, [], rest => ([Char.ofNat bits], rest)
  | _, _ :: _, [] => ([broken], [])
  | bits, range :: ranges, byte :: rest =>
    if range.1 ≤ byte ∧ byte ≤ range.2 then decodeTail (64 * bits + (byte.toNat - 0x80)) ranges rest
    else ([broken], byte :: rest)

theorem length_decodeTail (bits : Nat) (ranges : List (UInt8 × UInt8)) (bytes : List UInt8) :
    (decodeTail bits ranges bytes).2.length ≤ bytes.length := by
  induction bytes generalizing bits ranges with
  | nil => cases ranges <;> simp [decodeTail]
  | cons byte rest ih =>
    cases ranges with
    | nil => simp [decodeTail]
    | cons range ranges =>
      simp only [decodeTail]
      split
      · exact Nat.le_succ_of_le (ih _ _)
      · simp

/-- The characters of a list of bytes. -/
def decode (bytes : List UInt8) : List Char :=
  match bytes with
  | [] => []
  | byte :: rest =>
    match lead? byte with
    | none => broken :: decode rest
    | some l =>
      (decodeTail l.bits l.tails rest).1 ++ decode (decodeTail l.bits l.tails rest).2
  termination_by bytes.length
  decreasing_by
    · simp
    · have := length_decodeTail l.bits l.tails rest
      simp only [List.length_cons]; omega

end HotReload.Text.Utf8
