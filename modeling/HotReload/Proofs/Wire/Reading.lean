import HotReload.Json.Reader
import Mathlib.Data.List.Basic

/-!
# What is written is read

The compact text of a value, read again, gives the value. The reader is followed one production at a
time: each lemma has the characters of one part in front of an arbitrary rest, and says that the
part is read and the rest handed back.

* `Json.readString_quote`, `readNumber_toString`: literals.
* `Json.Fits`: the values whose numbers are natural numbers of 64 bits and whose nesting is bounded.
* `Json.Fits.reads`: such a value is read off the front of its text, with what follows left over.
* `Json.parse_render`: such a value is what its whole text spells.
-/

namespace HotReload.Json

/-! ### Strings -/

theorem hexValue?_hexDigit {n : Nat} (h : n < 16) : hexValue? (hexDigit n) = some n := by
  have all : ∀ n < 16, hexValue? (hexDigit n) = some n := by decide
  exact all n h

/-- A control character is read off its four digits. -/
theorem readUnicode_control (care : Care) {c : Char} (h : c.toNat < 0x20) (tail : List Char) :
    readUnicode care ('0' :: '0' :: hexDigit (c.toNat / 16) :: hexDigit (c.toNat % 16) :: tail) =
      .ok (c, tail) := by
  have high := hexValue?_hexDigit (n := c.toNat / 16) (by omega)
  have low := hexValue?_hexDigit (n := c.toNat % 16) (by omega)
  have zero : hexValue? '0' = some 0 := rfl
  have unit : (((0 * 16 + 0) * 16 + c.toNat / 16) * 16 + c.toNat % 16) = c.toNat := by omega
  have leads : isLeading c.toNat = false := by simp [isLeading]; omega
  have trails : isTrailing c.toNat = false := by simp [isTrailing]; omega
  simp only [readUnicode, readHex4, zero, high, low, unit, bind, Except.bind, leads, trails]
  simp

/-- A character that is written as another one behind a backslash. -/
theorem readStringBody_short {care : Care} {fuel : Nat} {c short : Char}
    {tail ds rest : List Char} (stands : readEscape care (short :: tail) = .ok (c, tail))
    (h : readStringBody care fuel tail = .ok (ds, rest)) :
    readStringBody care (fuel + 1) ('\\' :: short :: tail) = .ok (c :: ds, rest) := by
  simp [readStringBody, stands, h, bind, Except.bind]

/-- One character of a literal is read, in whichever way it is written. -/
theorem readStringBody_escape (care : Care) {fuel : Nat} (c : Char) {tail ds rest : List Char}
    (h : readStringBody care fuel tail = .ok (ds, rest)) :
    readStringBody care (fuel + 1) (escape c ++ tail) = .ok (c :: ds, rest) := by
  unfold escape
  split_ifs with quote back feed turn tab erase page control
  -- seven characters have a short form
  iterate 7
    · subst_vars
      exact readStringBody_short rfl h
  · simp [readStringBody, readEscape, readUnicode_control care control, h, bind, Except.bind]
  · simp [readStringBody, quote, back, control, h, bind, Except.bind]

theorem readStringBody_chars (care : Care) {cs : List Char} {fuel : Nat} (h : cs.length < fuel)
    (rest : List Char) :
    readStringBody care fuel (cs.flatMap escape ++ '"' :: rest) = .ok (cs, rest) := by
  induction cs generalizing fuel with
  | nil =>
    obtain ⟨fuel, rfl⟩ := Nat.exists_eq_add_of_lt h
    simp [readStringBody]
  | cons c cs ih =>
    obtain ⟨fuel, rfl⟩ := Nat.exists_eq_succ_of_ne_zero (Nat.ne_of_gt (Nat.zero_lt_of_lt h))
    rw [List.flatMap_cons, List.append_assoc]
    exact readStringBody_escape care c (ih (by simpa using h))

theorem escape_ne_nil (c : Char) : 1 ≤ (escape c).length := by
  unfold escape
  split_ifs <;> simp

theorem length_le_escaped (cs : List Char) : cs.length ≤ (cs.flatMap escape).length := by
  induction cs with
  | nil => exact Nat.le_refl _
  | cons c cs ih =>
    have one := escape_ne_nil c
    simp only [List.length_cons, List.flatMap_cons, List.length_append]
    omega

/-- **A string literal is read as the string.** -/
theorem readString_quote (care : Care) (s : String) (rest : List Char) :
    readString care (s.toList.flatMap escape ++ '"' :: rest) = .ok (s, rest) := by
  have enough : s.toList.length < (s.toList.flatMap escape ++ '"' :: rest).length + 1 := by
    have := length_le_escaped s.toList
    simp only [List.length_append]
    omega
  rw [readString, readStringBody_chars care enough]
  simp [bind, Except.bind]

/-! ### Numbers -/

/-- What can follow a value in a compact text. -/
def Closes (rest : List Char) : Prop :=
  ∀ c ∈ rest.head?, c = ',' ∨ c = ']' ∨ c = '\x7d'

namespace Closes

variable {rest : List Char}

theorem takeWhile_isDigit (h : Closes rest) {ds : List Char} (digits : ∀ c ∈ ds, c.isDigit = true) :
    (ds ++ rest).takeWhile Char.isDigit = ds ∧ (ds ++ rest).dropWhile Char.isDigit = rest := by
  have stops : rest.takeWhile Char.isDigit = [] ∧ rest.dropWhile Char.isDigit = rest := by
    cases rest with
    | nil => exact ⟨rfl, rfl⟩
    | cons c rest =>
      have other : c.isDigit = false := by rcases h c rfl with rfl | rfl | rfl <;> rfl
      simp [other]
  rw [List.takeWhile_append_of_pos digits, List.dropWhile_append_of_pos digits, stops.1, stops.2,
    List.append_nil]
  exact ⟨rfl, rfl⟩

/-- A number ends where a value may end. -/
theorem readFraction (h : Closes rest) : Json.readFraction rest = .ok ([], rest) := by
  cases rest with
  | nil => rfl
  | cons c rest => rcases h c rfl with rfl | rfl | rfl <;> simp [Json.readFraction, readExponent]

end Closes

/-- A natural number is written without leading zeros. -/
theorem eq_zero_of_toDigits {n : Nat} {ds : List Char} (h : Nat.toDigits 10 n = '0' :: ds) :
    n = 0 := by
  induction n using Nat.strongRecOn generalizing ds with
  | ind n ih =>
    rw [Nat.toDigits_eq_if (by decide)] at h
    split at h
    · next small =>
      have first : ∀ n < 10, n.digitChar = '0' → n = 0 := by decide
      exact first n small (List.cons.inj h).1
    · next large =>
      obtain ⟨d, more, digits⟩ := List.exists_cons_of_ne_nil (Nat.toDigits_ne_nil (n := n / 10) (b := 10))
      rw [digits, List.cons_append] at h
      obtain ⟨rfl, -⟩ := List.cons.inj h
      have := ih (n / 10) (by omega) digits
      omega

theorem isDigit_of_mem {n : Nat} : ∀ c ∈ Nat.toDigits 10 n, c.isDigit = true :=
  fun _ h => Nat.isDigit_of_mem_toDigits (by decide) (by decide) h

/-- A natural number begins with a digit. -/
theorem exists_toDigits_cons (n : Nat) :
    ∃ d ds, Nat.toDigits 10 n = d :: ds ∧ d.isDigit = true := by
  obtain ⟨d, ds, digits⟩ := List.exists_cons_of_ne_nil (Nat.toDigits_ne_nil (n := n) (b := 10))
  exact ⟨d, ds, digits, isDigit_of_mem d (digits ▸ List.mem_cons_self)⟩

theorem toList_toString (n : Nat) : (toString n).toList = Nat.toDigits 10 n := by
  rw [Nat.toString_eq_ofList_toDigits, String.toList_ofList]

theorem ne_of_isDigit {c d : Char} (digit : d.isDigit = true) (plain : c.isDigit = false) :
    d ≠ c := by
  rintro rfl
  rw [plain] at digit
  cases digit

theorem isBlank_of_isDigit {d : Char} (digit : d.isDigit = true) : isBlank d = false := by
  simp [isBlank, ne_of_isDigit digit (c := ' ') rfl, ne_of_isDigit digit (c := '\n') rfl,
    ne_of_isDigit digit (c := '\t') rfl, ne_of_isDigit digit (c := '\r') rfl]

theorem readMagnitude_toDigits (n : Nat) {rest : List Char} (h : Closes rest) :
    readMagnitude (Nat.toDigits 10 n ++ rest) = .ok (Nat.toDigits 10 n, rest) := by
  obtain ⟨taken, left⟩ := h.takeWhile_isDigit (isDigit_of_mem (n := n))
  obtain ⟨d, ds, digits, digit⟩ := exists_toDigits_cons n
  rw [digits, List.cons_append] at taken left ⊢
  unfold readMagnitude
  split
  · next zeros same =>
    obtain ⟨rfl, rfl⟩ := List.cons.inj same
    have zero := eq_zero_of_toDigits digits
    subst zero
    have none : ds = [] := by simpa using digits.symm
    subst none
    have ends := h.readFraction
    cases rest with
    | nil => rfl
    | cons c rest =>
      have other : c.isDigit = false := by rcases h c rfl with rfl | rfl | rfl <;> rfl
      simp [other, ends, bind, Except.bind]
  · simp only [readDigits, digit, if_true, taken, left, h.readFraction, bind, Except.bind]
    simp

namespace Number

theorem ofDigits_toDigits (n : Nat) : ofDigits (Nat.toDigits 10 n) = n := by
  have := Nat.ofDigitChars_ten_toDigits (n := n)
  rwa [Nat.ofDigitChars_eq_foldl] at this

/-- The literal of a natural number stands for the number. -/
theorem integer?_toString (n : Nat) : (ofLiteral (toString n)).integer? = some (n : Int) := by
  obtain ⟨d, ds, digits, digit⟩ := exists_toDigits_cons n
  have head : (Nat.toDigits 10 n).head? ≠ some '-' := by
    rw [digits]
    simpa using ne_of_isDigit digit (c := '-') rfl
  have ends : Closes [] := fun _ h => absurd h (by simp)
  obtain ⟨taken, left⟩ := ends.takeWhile_isDigit (isDigit_of_mem (n := n))
  rw [List.append_nil] at taken left
  simp [ofLiteral, integer?, head, taken, left, ofDigits_toDigits]

theorem unsigned?_toString (bits : Nat) {n : Nat} (h : n < 1 <<< bits) :
    unsigned? bits (toString n) = some n := by
  simp only [unsigned?, integer?_toString]
  exact if_pos h

theorem canonical?_toString {n : Nat} (h : n < UInt64.size) :
    canonical? (toString n) = some (toString n) := by
  simp only [canonical?, integer?_toString]
  exact if_pos h

end Number

/-- **The literal of a natural number of 64 bits is read as it is.** -/
theorem readNumber_toString (care : Care) {n : Nat} (h : n < UInt64.size) {rest : List Char}
    (closes : Closes rest) :
    readNumber care ((toString n).toList ++ rest) = .ok (toString n, rest) := by
  have magnitude := readMagnitude_toDigits n closes
  obtain ⟨d, ds, digits, digit⟩ := exists_toDigits_cons n
  have whole : String.ofList (Nat.toDigits 10 n) = toString n :=
    Nat.toString_eq_ofList_toDigits.symm
  rw [digits] at magnitude whole
  rw [toList_toString, digits]
  rw [List.cons_append] at magnitude ⊢
  unfold readNumber
  split
  · next same =>
    obtain ⟨rfl, -⟩ := List.cons.inj same
    cases digit
  · rw [magnitude]
    simp only [bind, Except.bind, whole, Number.canonical?_toString h]

/-! ### Characters of values

What is written for a value, case by case. -/

theorem chars_null : Json.null.chars = "null".toList := rfl

theorem chars_true : (Json.bool true).chars = "true".toList := rfl

theorem chars_false : (Json.bool false).chars = "false".toList := rfl

theorem chars_nat (n : Nat) : (nat n).chars = Nat.toDigits 10 n := toList_toString n

theorem chars_string (text : String) : (Json.string text).chars = quoteChars text := rfl

theorem chars_array (items : List Json) :
    (Json.array items).chars = '[' :: itemChars items ++ [']'] := rfl

theorem chars_object (fields : List (String × Json)) :
    (Json.object fields).chars = '\x7b' :: fieldChars fields ++ ['\x7d'] := rfl

/-- The characters of a field. -/
def pairChars (field : String × Json) : List Char := quoteChars field.1 ++ ':' :: field.2.chars

theorem itemChars_nil : itemChars [] = [] := rfl

theorem itemChars_cons (item : Json) (items : List Json) :
    itemChars (item :: items) = item.chars ++ items.flatMap fun next => ',' :: next.chars := by
  induction items generalizing item with
  | nil => exact (List.append_nil _).symm
  | cons next items ih =>
    have more : itemChars (item :: next :: items) = item.chars ++ ',' :: itemChars (next :: items) :=
      rfl
    rw [more, ih, List.flatMap_cons, List.cons_append]

theorem fieldChars_nil : fieldChars [] = [] := rfl

theorem fieldChars_cons (field : String × Json) (fields : List (String × Json)) :
    fieldChars (field :: fields) =
      pairChars field ++ fields.flatMap fun next => ',' :: pairChars next := by
  induction fields generalizing field with
  | nil => exact (List.append_nil _).symm
  | cons next fields ih =>
    have more : fieldChars (field :: next :: fields) =
        pairChars field ++ ',' :: fieldChars (next :: fields) := rfl
    rw [more, ih, List.flatMap_cons, List.cons_append]

/-! ### Values -/

/-- The values that are read as they are written: every number is a natural number of 64 bits, and
nothing nests deeper than `depth`. -/
inductive Fits : Nat → Json → Prop where
  | null {depth : Nat} : Fits depth .null
  | bool {depth : Nat} (value : Bool) : Fits depth (.bool value)
  | nat {depth n : Nat} (small : n < UInt64.size) : Fits depth (.nat n)
  | string {depth : Nat} (text : String) : Fits depth (.string text)
  | array {depth : Nat} {items : List Json} (inner : ∀ item ∈ items, Fits depth item) :
      Fits (depth + 1) (.array items)
  | object {depth : Nat} {fields : List (String × Json)}
      (inner : ∀ field ∈ fields, Fits depth field.2) : Fits (depth + 1) (.object fields)

theorem skipBlanks_cons {c : Char} (h : isBlank c = false) (cs : List Char) :
    skipBlanks (c :: cs) = c :: cs := by
  rw [skipBlanks, List.dropWhile_cons_of_neg (by simp [h])]

/-- A value opens with a character that is neither a blank nor the end of an array. -/
theorem Fits.opens {depth : Nat} {value : Json} (h : Fits depth value) :
    ∃ c cs, value.chars = c :: cs ∧ isBlank c = false ∧ c ≠ ']' := by
  cases h with
  | null => exact ⟨'n', _, rfl, rfl, by decide⟩
  | bool value => cases value <;> exact ⟨_, _, rfl, rfl, by decide⟩
  | @nat _ n =>
    obtain ⟨d, ds, digits, digit⟩ := exists_toDigits_cons n
    exact ⟨d, ds, by rw [chars_nat, digits], isBlank_of_isDigit digit, ne_of_isDigit digit rfl⟩
  | string text => exact ⟨'"', _, rfl, rfl, by decide⟩
  | array => exact ⟨'[', _, rfl, rfl, by decide⟩
  | object => exact ⟨'\x7b', _, rfl, rfl, by decide⟩

/-- A value is read off the front of a text that begins with its characters. -/
def Reads (care : Care) (depth : Nat) (value : Json) : Prop :=
  ∀ (fuel : Nat) (rest : List Char), 2 * value.chars.length ≤ fuel → Closes rest →
    readValueAt care depth fuel (value.chars ++ rest) = .ok (value, rest)

theorem Closes.comma (rest : List Char) : Closes (',' :: rest) := by
  rintro c ⟨⟩
  exact .inl rfl

theorem Closes.bracket (rest : List Char) : Closes (']' :: rest) := by
  rintro c ⟨⟩
  exact .inr (.inl rfl)

theorem Closes.brace (rest : List Char) : Closes ('\x7d' :: rest) := by
  rintro c ⟨⟩
  exact .inr (.inr rfl)

section Arrays

variable {care : Care} {depth : Nat} {items : List Json}

theorem closes_items (items : List Json) (rest : List Char) :
    Closes ((items.flatMap fun next => ',' :: next.chars) ++ ']' :: rest) := by
  cases items with
  | nil => exact .bracket rest
  | cons => exact .comma _

/-- The items behind the first are read, each behind its comma. -/
theorem readItems_more (inner : ∀ item ∈ items, Fits depth item)
    (reads : ∀ item ∈ items, Reads care depth item) (fuel : Nat) (rest : List Char)
    (enough : 2 * (items.flatMap fun next => ',' :: next.chars).length + 1 ≤ fuel) :
    readItems care depth fuel false
      ((items.flatMap fun next => ',' :: next.chars) ++ ']' :: rest) = .ok (items, rest) := by
  induction items generalizing fuel with
  | nil =>
    obtain ⟨fuel, rfl⟩ := Nat.exists_eq_add_of_le' (Nat.one_le_of_lt enough)
    simp [readItems, skipBlanks, isBlank]
  | cons item items ih =>
    obtain ⟨fuel, rfl⟩ := Nat.exists_eq_add_of_le' (Nat.one_le_of_lt enough)
    simp only [List.flatMap_cons, List.length_append, List.length_cons] at enough
    obtain ⟨c, cs, opens, blank, other⟩ := (inner item List.mem_cons_self).opens
    have one := reads item List.mem_cons_self fuel _ (by omega) (closes_items items rest)
    have more := ih (fun _ h => inner _ (List.mem_cons_of_mem _ h))
      (fun _ h => reads _ (List.mem_cons_of_mem _ h)) fuel (by omega)
    rw [opens, List.cons_append] at one
    simp only [List.flatMap_cons, List.cons_append, List.append_assoc, opens, readItems,
      skipBlanks_cons (c := ',') rfl]
    simp [other, one, more, bind, Except.bind, skipBlanks_cons blank]

theorem readItems_chars (inner : ∀ item ∈ items, Fits depth item)
    (reads : ∀ item ∈ items, Reads care depth item) (fuel : Nat) (rest : List Char)
    (enough : 2 * (itemChars items).length + 1 ≤ fuel) :
    readItems care depth fuel true (itemChars items ++ ']' :: rest) = .ok (items, rest) := by
  obtain ⟨fuel, rfl⟩ := Nat.exists_eq_add_of_le' (Nat.one_le_of_lt enough)
  cases items with
  | nil => simp [itemChars_nil, readItems, skipBlanks, isBlank]
  | cons item items =>
    obtain ⟨c, cs, opens, blank, other⟩ := (inner item List.mem_cons_self).opens
    have some : 0 < item.chars.length := by simp [opens]
    rw [itemChars_cons, List.length_append] at enough
    have one := reads item List.mem_cons_self fuel _ (by omega) (closes_items items rest)
    have more := readItems_more (fun _ h => inner _ (List.mem_cons_of_mem _ h))
      (fun _ h => reads _ (List.mem_cons_of_mem _ h)) fuel rest (by omega)
    rw [opens, List.cons_append] at one
    simp only [itemChars_cons, List.append_assoc, opens, List.cons_append, readItems,
      skipBlanks_cons blank]
    simp [one, more, bind, Except.bind]

end Arrays

section Objects

variable {care : Care} {depth : Nat} {fields : List (String × Json)}

theorem closes_fields (fields : List (String × Json)) (rest : List Char) :
    Closes ((fields.flatMap fun next => ',' :: pairChars next) ++ '\x7d' :: rest) := by
  cases fields with
  | nil => exact .brace rest
  | cons => exact .comma _

/-- One field is read, and those after it where they are. -/
theorem readField_chars {field : String × Json} (reads : Reads care depth field.2) {fuel : Nat}
    {after rest : List Char} {fields : List (String × Json)}
    (enough : 2 * field.2.chars.length ≤ fuel) (closes : Closes after)
    (more : readFields care depth fuel false after = .ok (fields, rest)) :
    readField care depth (fuel + 1) (pairChars field ++ after) =
      .ok (field :: fields, rest) := by
  obtain ⟨key, value⟩ := field
  have named := readString_quote care key (':' :: (value.chars ++ after))
  have one := reads fuel after enough closes
  simp only [pairChars, quoteChars, List.cons_append, List.append_assoc, List.nil_append,
    readField, named, one, more, bind, Except.bind, skipBlanks_cons (c := ':') rfl]

theorem readFields_more (reads : ∀ field ∈ fields, Reads care depth field.2) (fuel : Nat)
    (rest : List Char)
    (enough : 2 * (fields.flatMap fun next => ',' :: pairChars next).length + 1 ≤ fuel) :
    readFields care depth fuel false
      ((fields.flatMap fun next => ',' :: pairChars next) ++ '\x7d' :: rest) =
        .ok (fields, rest) := by
  induction fields generalizing fuel with
  | nil =>
    obtain ⟨fuel, rfl⟩ := Nat.exists_eq_add_of_le' (Nat.one_le_of_lt enough)
    simp [readFields, skipBlanks, isBlank]
  | cons field fields ih =>
    simp only [List.flatMap_cons, List.length_append, List.length_cons, pairChars] at enough
    obtain ⟨fuel, rfl⟩ : ∃ inner, fuel = inner + 2 := Nat.exists_eq_add_of_le' (by omega)
    have more := ih (fun _ h => reads _ (List.mem_cons_of_mem _ h)) fuel
      (by simp only [pairChars]; omega)
    have one := readField_chars (reads field List.mem_cons_self) (by omega)
      (closes_fields fields rest) more
    simp only [List.flatMap_cons, List.cons_append, List.append_assoc, readFields,
      skipBlanks_cons (c := ',') rfl]
    simpa [pairChars, quoteChars, skipBlanks_cons (c := '"') rfl] using one

theorem readFields_chars (reads : ∀ field ∈ fields, Reads care depth field.2) (fuel : Nat)
    (rest : List Char) (enough : 2 * (fieldChars fields).length + 1 ≤ fuel) :
    readFields care depth fuel true (fieldChars fields ++ '\x7d' :: rest) =
      .ok (fields, rest) := by
  cases fields with
  | nil =>
    obtain ⟨fuel, rfl⟩ := Nat.exists_eq_add_of_le' (Nat.one_le_of_lt enough)
    simp [fieldChars_nil, readFields, skipBlanks, isBlank]
  | cons field fields =>
    simp only [fieldChars_cons, List.length_append, pairChars, List.length_cons] at enough
    have quotes : 2 ≤ (quoteChars field.1).length := by simp [quoteChars]
    obtain ⟨fuel, rfl⟩ : ∃ inner, fuel = inner + 2 := Nat.exists_eq_add_of_le' (by omega)
    have more := readFields_more (fun _ h => reads _ (List.mem_cons_of_mem _ h)) fuel rest
      (by simp only [pairChars]; omega)
    have one := readField_chars (reads field List.mem_cons_self) (by omega)
      (closes_fields fields rest) more
    rw [fieldChars_cons, List.append_assoc]
    simpa [pairChars, quoteChars, readFields, skipBlanks_cons (c := '"') rfl] using one

end Objects

/-- Every value that fits is read off the front of its text, however closely. -/
theorem Fits.reads {depth : Nat} {value : Json} (h : Fits depth value) (care : Care) :
    Reads care depth value := by
  induction h with
  | null =>
    intro fuel rest enough closes
    obtain ⟨fuel, rfl⟩ := Nat.exists_eq_add_of_le' (Nat.one_le_of_lt enough)
    simp [chars_null, readValueAt, skipBlanks, isBlank, readWord, bind, Except.bind]
  | bool value =>
    intro fuel rest enough closes
    obtain ⟨fuel, rfl⟩ : ∃ inner, fuel = inner + 1 :=
      Nat.exists_eq_add_of_le' (by cases value <;> exact Nat.one_le_of_lt enough)
    cases value <;>
      simp [chars_true, chars_false, readValueAt, skipBlanks, isBlank, readWord, bind, Except.bind]
  | @nat _ n small =>
    intro fuel rest enough closes
    have read := readNumber_toString care small closes
    obtain ⟨d, ds, digits, digit⟩ := exists_toDigits_cons n
    rw [chars_nat, digits] at enough ⊢
    rw [toList_toString, digits, List.cons_append] at read
    obtain ⟨fuel, rfl⟩ := Nat.exists_eq_add_of_le' (Nat.one_le_of_lt enough)
    rw [List.cons_append, readValueAt, skipBlanks_cons (isBlank_of_isDigit digit)]
    split
    case h_8 c _ _ _ _ _ _ same =>
      obtain ⟨rfl, rfl⟩ := List.cons.inj same
      simp [digit, read, Json.nat, bind, Except.bind]
    all_goals
      next same =>
        cases same
        try cases digit
  | string text =>
    intro fuel rest enough closes
    obtain ⟨fuel, rfl⟩ := Nat.exists_eq_add_of_le' (Nat.one_le_of_lt enough)
    simp [chars_string, quoteChars, readValueAt, skipBlanks_cons (c := '"') rfl, readString_quote, bind,
      Except.bind]
  | array inner ih =>
    intro fuel rest enough closes
    rw [chars_array, List.length_append, List.length_cons] at enough
    obtain ⟨fuel, rfl⟩ : ∃ inner, fuel = inner + 1 := Nat.exists_eq_add_of_le' (by omega)
    have items := readItems_chars inner ih fuel rest (by omega)
    simp [chars_array, readValueAt, skipBlanks_cons (c := '[') rfl, items, bind, Except.bind]
  | object inner ih =>
    intro fuel rest enough closes
    rw [chars_object, List.length_append, List.length_cons] at enough
    obtain ⟨fuel, rfl⟩ : ∃ inner, fuel = inner + 1 := Nat.exists_eq_add_of_le' (by omega)
    have fields := readFields_chars ih fuel rest (by omega)
    simp [chars_object, readValueAt, skipBlanks_cons (c := '\x7b') rfl, fields, bind, Except.bind]

/-- **A value that fits is what its text spells.** -/
theorem parse_render {value : Json} (h : Fits depthLimit value) :
    parse value.render = .ok value := by
  have ends : Closes [] := fun _ h => absurd h (by simp)
  have read := h.reads .strict (4 * value.chars.length + 4) [] (by omega) ends
  rw [List.append_nil] at read
  simp [parse, render, readValue, read, skipBlanks]

end HotReload.Json
