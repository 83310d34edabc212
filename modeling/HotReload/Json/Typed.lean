import HotReload.Json.Reader

/-!
# Reading records

A `Typed α` reads one value of a known type from the front of a text. Records are strict about
their fields: each is required and none may come twice; a record may also be written as the array of
its fields in order. Whether a field the record does not have is passed over is said per record.

* `Typed.unsigned`, `text`, `flag`, `texts`, `variant`: the types of fields.
* `Typed.record`: an object or an array of fields, as the values of its fields in order.
* `Typed.parse`: a whole text as one value.
-/

namespace HotReload.Json

/-- A reader of one type. -/
abbrev Typed (α : Type) := List Char → Option (α × List Char)

namespace Typed

/-- The value a reader gives, where it finds no fault. -/
def ofRead {α : Type} (read : List Char → Except Fault (α × List Char)) : Typed α :=
  fun cs => (read cs).toOption

/-- Drops blanks, then the given character. -/
def skip (c : Char) (cs : List Char) : Option (List Char) :=
  match skipBlanks cs with
  | d :: rest => if c = d then some rest else none
  | [] => none

/-- A string. -/
def text : Typed String := fun cs =>
  (skip '"' cs).bind (ofRead (readString .strict))

/-- A natural number below `2^bits`, written as an integer. -/
def unsigned (bits : Nat) : Typed Nat := fun cs => do
  let (literal, rest) ← ofRead (readNumber .loose) (skipBlanks cs)
  let n ← Number.unsigned? bits literal
  some (n, rest)

/-- `true` or `false`. -/
def flag : Typed Bool := fun cs =>
  match skipBlanks cs with
  | 't' :: rest => (ofRead (readWord "rue".toList) rest).map fun r => (true, r.2)
  | 'f' :: rest => (ofRead (readWord "alse".toList) rest).map fun r => (false, r.2)
  | _ => none

/-- `null`. -/
def null : Typed Unit := fun cs =>
  match skipBlanks cs with
  | 'n' :: rest => ofRead (readWord "ull".toList) rest
  | _ => none

/-- The items of a list up to its closing bracket. -/
def items {α : Type} (read : Typed α) : Nat → Bool → Typed (List α)
  | 0, _, _ => none
  | fuel + 1, first, cs =>
    match skipBlanks cs with
    | ']' :: rest => some ([], rest)
    | c :: rest => do
      let rest ← if first then some (c :: rest) else if c = ',' then some rest else none
      let (item, rest) ← read rest
      let (more, rest) ← items read fuel false rest
      some (item :: more, rest)
    | [] => none

/-- A list of values of one type. -/
def list {α : Type} (read : Typed α) : Typed (List α) := fun cs => do
  let rest ← skip '[' cs
  items read (rest.length + 1) true rest

/-- One of some names, written as a string or as an object that holds `null` under the name. -/
def variant {α : Type} (named : String → Option α) : Typed α := fun cs =>
  match skipBlanks cs with
  | '\x7b' :: rest => do
    let (name, rest) ← text rest
    let value ← named name
    let rest ← skip ':' rest
    let ((), rest) ← null rest
    let rest ← skip '\x7d' rest
    some (value, rest)
  | cs => do
    let (name, rest) ← text cs
    let value ← named name
    some (value, rest)

/-! ### Records -/

/-- A field of a record: its key and the reader of its value. The value goes into the record under
construction. -/
structure Field (ρ : Type) where
  key : String
  read : ρ → Typed ρ

/-- A field that `set` puts into the record. -/
def field {ρ α : Type} (key : String) (read : Typed α) (set : ρ → α → ρ) : Field ρ :=
  ⟨key, fun r cs => (read cs).map fun (value, rest) => (set r value, rest)⟩

/-- The fields of an object up to its closing brace; `seen` are the keys that came before. -/
def fields {ρ : Type} (known : List (Field ρ)) (open_ : Bool) :
    Nat → Bool → List String → ρ → Typed (List String × ρ)
  | 0, _, _, _, _ => none
  | fuel + 1, first, seen, r, cs =>
    match skipBlanks cs with
    | '\x7d' :: rest => some ((seen, r), rest)
    | c :: rest => do
      let rest ← if first then some (c :: rest) else if c = ',' then some rest else none
      let (key, rest) ← text rest
      let rest ← skip ':' rest
      match known.find? (·.key = key) with
      | some f =>
        if seen.contains key then none
        else do
          let (r, rest) ← f.read r rest
          fields known open_ fuel false (key :: seen) r rest
      | none =>
        if open_ then do
          let (_, rest) ← ofRead (readValue .loose) rest
          fields known open_ fuel false seen r rest
        else none
    | [] => none

/-- The fields of a record written as an array. -/
def positional {ρ : Type} : List (Field ρ) → Bool → ρ → Typed ρ
  | [], _, r, cs => (skip ']' cs).map fun rest => (r, rest)
  | f :: fs, first, r, cs => do
    let rest ← if first then some cs else skip ',' cs
    let (r, rest) ← f.read r rest
    positional fs false r rest

/-- A record. `open_` says that fields it does not have are passed over; `start` is the record
before any field is read. -/
def record {ρ : Type} (known : List (Field ρ)) (open_ : Bool) (start : ρ) : Typed ρ := fun cs =>
  match skipBlanks cs with
  | '[' :: rest => positional known true start rest
  | '\x7b' :: rest => do
    let ((seen, r), rest) ← fields known open_ (rest.length + 1) true [] start rest
    if known.all (fun f => seen.contains f.key) then some (r, rest) else none
  | _ => none

/-- A whole text as one value. -/
def parse {α : Type} (read : Typed α) (source : String) : Option α :=
  match read source.toList with
  | some (value, rest) => if skipBlanks rest = [] then some value else none
  | none => none

end Typed

end HotReload.Json
