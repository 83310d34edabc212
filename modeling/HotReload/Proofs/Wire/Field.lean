import HotReload.Json.Typed
import HotReload.Proofs.Wire.Reading

/-!
# Values of fields

A reader of one type undoes the writer of that type where it takes what was written off the front of
a text and hands back what follows.  This is so for each type of field.

* `Json.Typed.Restores`: a reader undoes a writer.
* `Json.Typed.parse_of_read`, `parse_render`: what a whole text comes to.
* `restores_text`, `unsigned_nat`, `restores_flag`, `restores_variant`, `restores_list`: the types
  of fields.
-/

namespace HotReload.Json.Typed

/-- What `write` writes, `read` takes off the front of a text, and hands back what follows. -/
def Restores {α : Type} (read : Typed α) (write : α → Json) : Prop :=
  ∀ value rest, Closes rest → read ((write value).chars ++ rest) = some (value, rest)

/-- A whole text is read as its characters are, where nothing is left over. -/
theorem parse_of_read {α : Type} {read : Typed α} {json : Json} {value : α}
    (taken : read (json.chars ++ []) = some (value, [])) : parse read json.render = some value := by
  rw [List.append_nil] at taken
  simp [parse, render, taken, skipBlanks]

/-- A whole text is refused where its characters are. -/
theorem parse_of_refused {α : Type} {read : Typed α} {json : Json}
    (refused : read (json.chars ++ []) = none) : parse read json.render = none := by
  rw [List.append_nil] at refused
  simp [parse, render, refused]

/-- **A whole text** is read as the value that was written. -/
theorem parse_render {α : Type} {read : Typed α} {write : α → Json} (h : Restores read write)
    (value : α) : parse read (write value).render = some value :=
  parse_of_read (h value [] fun _ mem => absurd mem (by simp))

/-- A value in another dress is restored where its dress is put on again. -/
theorem Restores.map {α β : Type} {read : Typed α} {write : α → Json} (h : Restores read write)
    {dress : α → β} {bare : β → α} (undone : ∀ b, dress (bare b) = b) :
    Restores (fun cs => (read cs).map fun (value, rest) => (dress value, rest)) (write ∘ bare) := by
  intro value rest closes
  simp only [Function.comp_apply, h (bare value) rest closes, Option.map_some, undone]

/-! ### Strings, numbers and names -/

theorem skip_cons {c : Char} (h : isBlank c = false) (cs : List Char) :
    skip c (c :: cs) = some cs := by
  simp only [skip, skipBlanks_cons h, if_true]

theorem text_quote (s : String) (rest : List Char) :
    text (quoteChars s ++ rest) = some (s, rest) := by
  simp only [text, quoteChars, List.cons_append, List.append_assoc, List.nil_append,
    skip_cons (c := '"') rfl, Option.bind_some, ofRead, readString_quote]
  rfl

theorem restores_text : Restores text .string := by
  intro s rest _
  rw [chars_string]
  exact text_quote s rest

/-- A word of at most 64 bits. -/
theorem unsigned_nat (bits : Nat) {n : Nat} (small : n < 1 <<< bits) (word : n < UInt64.size)
    {rest : List Char} (closes : Closes rest) :
    unsigned bits ((nat n).chars ++ rest) = some (n, rest) := by
  have blank : skipBlanks ((toString n).toList ++ rest) = (toString n).toList ++ rest := by
    obtain ⟨d, ds, digits, digit⟩ := exists_toDigits_cons n
    rw [toList_toString, digits, List.cons_append, skipBlanks_cons (isBlank_of_isDigit digit)]
  have read :
      ofRead (readNumber .loose) ((toString n).toList ++ rest) = some (toString n, rest) := by
    rw [ofRead, readNumber_toString .loose word closes]
    rfl
  rw [chars_nat, ← toList_toString, unsigned, blank, read]
  simp only [bind, Option.bind_some, Number.unsigned?_toString bits small]

theorem restores_flag : Restores flag .bool := by
  intro value rest _
  cases value <;>
    simp [chars_true, chars_false, flag, skipBlanks, isBlank, ofRead, readWord, Except.toOption]

/-- A name in quotes. -/
theorem restores_variant {α : Type} {named : String → Option α} {name : α → String}
    (known : ∀ value, named (name value) = some value) :
    Restores (variant named) fun value => .string (name value) := by
  intro value rest _
  have quoted := text_quote (name value) rest
  rw [chars_string, variant]
  rw [quoteChars, List.cons_append, List.cons_append] at quoted ⊢
  rw [skipBlanks_cons (c := '"') rfl]
  -- what opens the name opens no object
  split
  · next same => cases same
  · simp only [quoted, known, bind, Option.bind_some]

/-- Each part of a text that opens with a comma takes a character at least. -/
theorem length_le_parts {α : Type} (part : α → List Char) (xs : List α) :
    xs.length ≤ (xs.flatMap fun x => ',' :: part x).length := by
  induction xs with
  | nil => exact Nat.le_refl _
  | cons x xs ih =>
    simp only [List.flatMap_cons, List.length_append, List.length_cons]
    omega

/-- A name may also be the only key of an object. -/
theorem variant_object {α : Type} (named : String → Option α) (name : α → String)
    (known : ∀ value, named (name value) = some value) (value : α) (rest : List Char) :
    variant named ((Json.object [(name value, .null)]).chars ++ rest) = some (value, rest) := by
  have quoted := text_quote (name value) (':' :: ("null".toList ++ '\x7d' :: rest))
  have blank : null ("null".toList ++ '\x7d' :: rest) = some ((), '\x7d' :: rest) := by
    simp [null, skipBlanks, isBlank, ofRead, readWord, Except.toOption]
  have whole : (Json.object [(name value, .null)]).chars ++ rest =
      '\x7b' :: (quoteChars (name value) ++ ':' :: ("null".toList ++ '\x7d' :: rest)) := by
    simp [chars_object, fieldChars_cons, pairChars, chars_null]
  rw [whole, variant, skipBlanks_cons (c := '\x7b') rfl]
  simp only [quoted, known, skip_cons (c := ':') rfl, blank, skip_cons (c := '\x7d') rfl, bind,
    Option.bind_some]

/-! ### Lists -/

section Lists

variable {α : Type} {read : Typed α} {write : α → Json}

/-- The items of a list behind the first one. -/
def itemsTail (write : α → Json) (values : List α) : List Char :=
  values.flatMap fun value => ',' :: (write value).chars

theorem closes_itemsTail (write : α → Json) (values : List α) (rest : List Char) :
    Closes (itemsTail write values ++ ']' :: rest) := by
  cases values with
  | nil => exact .bracket rest
  | cons => exact .comma _

theorem itemChars_map (write : α → Json) (value : α) (values : List α) :
    itemChars ((value :: values).map write) = (write value).chars ++ itemsTail write values := by
  rw [List.map_cons, itemChars_cons, itemsTail, List.flatMap_map]

variable {fuel : Nat} {value : α} {values : List α} {cs after rest : List Char}

/-- The first item of a list is read, and those after it where they are. -/
theorem items_first {c : Char} (blank : isBlank c = false) (other : c ≠ ']')
    (one : read (c :: cs) = some (value, after))
    (more : items read fuel false after = some (values, rest)) :
    items read (fuel + 1) true (c :: cs) = some (value :: values, rest) := by
  simp [items, skipBlanks_cons blank, one, more, bind]

theorem items_next (one : read cs = some (value, after))
    (more : items read fuel false after = some (values, rest)) :
    items read (fuel + 1) false (',' :: cs) = some (value :: values, rest) := by
  simp [items, skipBlanks_cons (c := ',') rfl, one, more, bind]

theorem items_end (first : Bool) : items read (fuel + 1) first (']' :: rest) = some ([], rest) := by
  simp [items, skipBlanks_cons (c := ']') rfl]

theorem items_more (h : Restores read write) (values : List α) (rest : List Char) {fuel : Nat}
    (enough : values.length < fuel) :
    items read fuel false (itemsTail write values ++ ']' :: rest) = some (values, rest) := by
  induction values generalizing fuel with
  | nil =>
    obtain ⟨fuel, rfl⟩ := Nat.exists_eq_add_of_le' (Nat.one_le_of_lt enough)
    exact items_end false
  | cons value values ih =>
    obtain ⟨fuel, rfl⟩ := Nat.exists_eq_add_of_le' (Nat.one_le_of_lt enough)
    have one := h value _ (closes_itemsTail write values rest)
    rw [itemsTail, List.flatMap_cons, List.cons_append, List.cons_append, List.append_assoc]
    exact items_next one (ih (by simpa using enough))

/-- **A list** is restored where its items are, and none of them could be taken for its end. -/
theorem restores_list (h : Restores read write) (fits : ∀ value, Fits 0 (write value)) :
    Restores (list read) fun values => .array (values.map write) := by
  intro values rest _
  rw [chars_array, list, List.cons_append, List.cons_append, List.append_assoc,
    skip_cons (c := '[') rfl, List.singleton_append]
  simp only [bind, Option.bind_some]
  cases values with
  | nil => exact items_end true
  | cons value values =>
    obtain ⟨c, cs, opens, blank, other⟩ := (fits value).opens
    have one := h value _ (closes_itemsTail write values rest)
    have count : values.length ≤ (itemsTail write values).length := length_le_parts _ values
    rw [itemChars_map, List.append_assoc]
    rw [opens, List.cons_append] at one ⊢
    refine items_first blank other one (items_more h values rest ?_)
    simp only [List.length_cons, List.length_append]
    omega

end Lists

end HotReload.Json.Typed
