/-!
# The SHA-1 digest

A message is padded to whole blocks of sixteen words; each block is stretched to eighty words, which
are mixed one after the other into a state of five.

* `Sha1.padded`: the message with the bit that ends it, zeros, and its length in bits.
* `Sha1.digest`: the twenty bytes of a message.
-/

namespace HotReload.Sha1

/-- The state that the words of a message are mixed into. -/
structure State where
  a : UInt32
  b : UInt32
  c : UInt32
  d : UInt32
  e : UInt32
  deriving DecidableEq, Inhabited

/-- The state before the first block. -/
def start : State := ⟨0x67452301, 0xEFCDAB89, 0x98BADCFE, 0x10325476, 0xC3D2E1F0⟩

/-- Turns the bits of a word to the left. -/
def rotate (word : UInt32) (by_ : UInt32) : UInt32 := (word <<< by_) ||| (word >>> (32 - by_))

/-! ### Blocks -/

/-- The bytes of a number, the highest in front. -/
def bytesOf (width n : Nat) : List UInt8 :=
  (List.range width).map fun i => (n >>> (8 * (width - 1 - i))).toUInt8

/-- A message padded to whole blocks. -/
def padded (message : List UInt8) : List UInt8 :=
  message ++ 0x80 :: List.replicate ((55 + 64 - message.length % 64) % 64) 0 ++
    bytesOf 8 (8 * message.length)

/-- The words that bytes make, four bytes each. -/
def wordsOf : List UInt8 → List UInt32
  | a :: b :: c :: d :: rest =>
    ((a.toUInt32 <<< 24) ||| (b.toUInt32 <<< 16) ||| (c.toUInt32 <<< 8) ||| d.toUInt32) ::
      wordsOf rest
  | _ => []

/-- Cuts a list into parts of one length; what is left over is dropped. -/
def parts {α : Type} (length : Nat) (xs : List α) : List (List α) :=
  (List.range (xs.length / length)).map fun i => (xs.drop (i * length)).take length

/-- The sixteen words of a block stretched to eighty: each new word mixes four earlier ones. -/
def stretch (block : List UInt32) : List UInt32 :=
  let word := fun (reversed : List UInt32) =>
    rotate (reversed.getD 2 0 ^^^ reversed.getD 7 0 ^^^ reversed.getD 13 0 ^^^ reversed.getD 15 0) 1
  ((List.range 64).foldl (fun reversed _ => word reversed :: reversed) block.reverse).reverse

/-! ### Mixing -/

/-- The function and the constant of a round. -/
def roundOf (round : Nat) (s : State) : UInt32 × UInt32 :=
  if round < 20 then ((s.b &&& s.c) ||| (~~~s.b &&& s.d), 0x5A827999)
  else if round < 40 then (s.b ^^^ s.c ^^^ s.d, 0x6ED9EBA1)
  else if round < 60 then ((s.b &&& s.c) ||| (s.b &&& s.d) ||| (s.c &&& s.d), 0x8F1BBCDC)
  else (s.b ^^^ s.c ^^^ s.d, 0xCA62C1D6)

/-- Mixes one word into the state. -/
def mix (s : State) (word : UInt32 × Nat) : State :=
  let (f, k) := roundOf word.2 s
  ⟨rotate s.a 5 + f + s.e + k + word.1, s.a, rotate s.b 30, s.c, s.d⟩

/-- Mixes a block into the state. -/
def absorb (s : State) (block : List UInt32) : State :=
  let t := (stretch block).zipIdx.foldl mix s
  ⟨s.a + t.a, s.b + t.b, s.c + t.c, s.d + t.d, s.e + t.e⟩

/-- The digest of a message. -/
def digest (message : List UInt8) : List UInt8 :=
  let s := (parts 16 (wordsOf (padded message))).foldl absorb start
  [s.a, s.b, s.c, s.d, s.e].flatMap fun word => bytesOf 4 word.toNat

end HotReload.Sha1
