import HotReload.Proofs.Wire.Field
import Mathlib.Data.List.Nodup
import Mathlib.Data.List.Perm.Basic

/-!
# Records are read from all their spellings

The text that is written for a record is one of many that its reader takes.  An object may have the
fields in any order, and between them, if the record is open, fields that the record does not have;
and the record may be the array of its values.  All of these are read as the same record, since no
two fields get in each other's way.  What the reader does not take is an object that lacks a field,
one in which a field of the record comes twice, and, if the record is closed, one with a field that
it does not have.

* `Json.Typed.Entry`, `Item`: a field of a record with its value; a field of an object.
* `Json.Typed.fields_run`: some fields of an object are read.
* `Json.Typed.record_object`, `record_array`: what a reader makes of an object and of an array.
* `Json.Typed.record_missing`, `record_refused`: what it refuses.
* `Json.Typed.Spelling`: the texts of a record; `Layout.reads`: all of them are read as the record.
-/

namespace HotReload.Json.Typed

variable {ρ : Type}

/-! ### Fields with their values -/

/-- A field of a record with its value: what is written, and what it puts into the record. -/
structure Entry (ρ : Type) where
  field : Field ρ
  value : Json
  put : ρ → ρ
  reads : ∀ r rest, Closes rest → field.read r (value.chars ++ rest) = some (put r, rest)

namespace Entry

/-- A field that is restored, with a value. -/
def of {α : Type} {read : Typed α} {write : α → Json} (key : String) (set : ρ → α → ρ)
    (h : Restores read write) (value : α) : Entry ρ where
  field := Typed.field key read set
  value := write value
  put r := set r value
  reads r rest closes := by simp [Typed.field, h value rest closes]

/-- The key of the field. -/
def key (e : Entry ρ) : String := e.field.key

/-- What is written for the field in an object. -/
def pair (e : Entry ρ) : String × Json := (e.key, e.value)

end Entry

/-- The record that some fields make of another one, the first of them first. -/
def build (entries : List (Entry ρ)) (r : ρ) : ρ := entries.foldl (fun r e => e.put r) r

/-- A field of an object: one of the record, or another one. -/
inductive Item (ρ : Type) where
  | own (entry : Entry ρ)
  | other (key : String) (value : Json)

namespace Item

/-- What is written for the field. -/
def pair : Item ρ → String × Json
  | own e => e.pair
  | other key value => (key, value)

/-- The field of the record. -/
def entry? : Item ρ → Option (Entry ρ)
  | own e => some e
  | other _ _ => none

/-- The fields of the record among the fields of an object. -/
def entries (items : List (Item ρ)) : List (Entry ρ) := items.filterMap entry?

theorem entries_own (entries : List (Entry ρ)) : Item.entries (entries.map own) = entries := by
  rw [Item.entries, List.filterMap_map]
  exact List.filterMap_some

theorem mem_entries {items : List (Item ρ)} {e : Entry ρ} : e ∈ entries items ↔ own e ∈ items := by
  simp only [entries, List.mem_filterMap]
  constructor
  · rintro ⟨e' | ⟨key, value⟩, mem, same⟩
    · cases same
      exact mem
    · cases same
  · exact fun mem => ⟨own e, mem, rfl⟩

end Item

/-- A record reader can take some fields of an object: those of the record each once, and others if
the record is open. -/
structure Readable (known : List (Field ρ)) (open_ : Bool) (items : List (Item ρ)) : Prop where
  there : ∀ e, .own e ∈ items → known.find? (·.key = e.key) = some e.field
  once : ((Item.entries items).map Entry.key).Nodup
  others : ∀ key value, .other key value ∈ items →
    open_ = true ∧ known.find? (·.key = key) = none ∧ Fits depthLimit value

section Objects

variable {known : List (Field ρ)} {open_ : Bool} {seen : List String} {item : Item ρ}
  {items : List (Item ρ)} {fuel : Nat} {r : ρ} {after rest : List Char}

theorem Readable.tail (h : Readable known open_ (item :: items)) : Readable known open_ items where
  there e mem := h.there e (List.mem_cons_of_mem _ mem)
  once := h.once.sublist (((List.sublist_cons_self item items).filterMap Item.entry?).map Entry.key)
  others key value mem := h.others key value (List.mem_cons_of_mem _ mem)

/-! ### The fields of an object -/

/-- What stands in front of a field of an object. -/
def lead (first : Bool) : List Char := if first then [] else [',']

/-- What is written for some fields of an object, from its start or further on. -/
def run (first : Bool) : List (String × Json) → List Char
  | [] => []
  | pair :: pairs => lead first ++ (pairChars pair ++ run false pairs)

theorem fieldChars_eq_run (pairs : List (String × Json)) : fieldChars pairs = run true pairs := by
  have more (pairs : List (String × Json)) :
      (pairs.flatMap fun pair => ',' :: pairChars pair) = run false pairs := by
    induction pairs with
    | nil => rfl
    | cons pair pairs ih =>
      rw [List.flatMap_cons, ih]
      rfl
  cases pairs with
  | nil => rfl
  | cons pair pairs =>
    rw [fieldChars_cons, more]
    rfl

theorem run_append (first : Bool) (front back : List (String × Json)) :
    run first (front ++ back) = run first front ++ run (first && front.isEmpty) back := by
  induction front generalizing first with
  | nil => rw [List.isEmpty_nil, Bool.and_true]; rfl
  | cons pair front ih =>
    rw [List.cons_append, run, run, ih, List.isEmpty_cons, Bool.and_false, Bool.false_and,
      List.append_assoc, List.append_assoc]

theorem length_le_run (first : Bool) (pairs : List (String × Json)) :
    pairs.length ≤ (run first pairs).length := by
  induction pairs generalizing first with
  | nil => exact Nat.le_refl _
  | cons pair pairs ih =>
    have more := ih false
    simp only [run, pairChars, List.length_append, List.length_cons]
    omega

theorem closes_run (closes : Closes after) (pairs : List (String × Json)) :
    Closes (run false pairs ++ after) := by
  cases pairs with
  | nil => exact closes
  | cons => exact .comma _

/-- A reader finds the key of the next field, and goes by it. -/
theorem fields_pair (first : Bool) {key : String} (value : Json) {found : Option (Field ρ)}
    (there : known.find? (·.key = key) = found) :
    fields known open_ (fuel + 1) first seen r (lead first ++ (pairChars (key, value) ++ after)) =
      match found with
      | some f =>
        if key ∈ seen then none
        else (f.read r (value.chars ++ after)).bind fun (r, rest) =>
          fields known open_ fuel false (key :: seen) r rest
      | none =>
        if open_ then (ofRead (readValue .loose) (value.chars ++ after)).bind fun (_, rest) =>
          fields known open_ fuel false seen r rest
        else none := by
  have named := text_quote key (':' :: (value.chars ++ after))
  obtain ⟨tail, opens⟩ : ∃ tail, quoteChars key = '"' :: tail := ⟨_, rfl⟩
  rw [pairChars, List.append_assoc, List.cons_append]
  rw [opens, List.cons_append] at named ⊢
  cases found <;> cases first <;>
    simp [lead, fields, skipBlanks_cons (c := '"') rfl, skipBlanks_cons (c := ',') rfl,
      skip_cons (c := ':') rfl, named, there, bind]

/-- A value that nobody looks at is passed over. -/
theorem readValue_chars {value : Json} (fits : Fits depthLimit value) (closes : Closes after) :
    ofRead (readValue .loose) (value.chars ++ after) = some (value, after) := by
  have room : 2 * value.chars.length ≤ 4 * (value.chars ++ after).length + 4 := by
    rw [List.length_append]
    omega
  have read := fits.reads Care.loose _ after room closes
  rw [ofRead, readValue, read]
  rfl

/-- One field of an object is read. -/
theorem fields_item (h : Readable known open_ (item :: items))
    (fresh : ∀ e ∈ Item.entries [item], e.key ∉ seen) (first : Bool) (fuel : Nat) (r : ρ)
    (closes : Closes after) :
    fields known open_ (fuel + 1) first seen r (lead first ++ (pairChars item.pair ++ after)) =
      fields known open_ fuel false ((Item.entries [item]).map Entry.key ++ seen)
        (build (Item.entries [item]) r) after := by
  cases item with
  | own e =>
    have unseen : e.key ∉ seen := fresh e List.mem_cons_self
    rw [Item.pair, Entry.pair, fields_pair first e.value (h.there e List.mem_cons_self)]
    simp only [unseen, if_false, e.reads r after closes, Option.bind_some]
    rfl
  | other key value =>
    obtain ⟨opened, unknown, fits⟩ := h.others key value List.mem_cons_self
    rw [Item.pair, fields_pair first value unknown, opened]
    simp only [if_true, readValue_chars fits closes, Option.bind_some]
    rfl

/-- **Some fields of an object** are read, in the order in which they come. -/
theorem fields_run (h : Readable known open_ items)
    (fresh : ∀ e ∈ Item.entries items, e.key ∉ seen) (first : Bool) (fuel : Nat) (r : ρ)
    (closes : items ≠ [] → Closes after) :
    fields known open_ (items.length + fuel) first seen r
        (run first (items.map Item.pair) ++ after) =
      fields known open_ fuel (first && items.isEmpty)
        (((Item.entries items).map Entry.key).reverse ++ seen) (build (Item.entries items) r)
        after := by
  induction items generalizing seen r first with
  | nil =>
    rw [List.length_nil, Nat.zero_add, List.isEmpty_nil, Bool.and_true]
    rfl
  | cons item items ih =>
    have split : Item.entries (item :: items) = Item.entries [item] ++ Item.entries items := by
      rw [Item.entries, ← List.singleton_append, List.filterMap_append]
      rfl
    have once := h.once
    rw [split, List.map_append, List.nodup_append] at once
    have one := fields_item h (fun e mem => fresh e (split ▸ List.mem_append_left _ mem)) first
      (items.length + fuel) r (closes_run (closes (List.cons_ne_nil _ _)) (items.map Item.pair))
    have unseen : ∀ e ∈ Item.entries items,
        e.key ∉ (Item.entries [item]).map Entry.key ++ seen := fun e mem old => by
      rcases List.mem_append.mp old with old | old
      · exact once.2.2 e.key old e.key (List.mem_map_of_mem mem) rfl
      · exact fresh e (split ▸ List.mem_append_right _ mem) old
    have more := ih h.tail unseen false (build (Item.entries [item]) r)
      fun _ => closes (List.cons_ne_nil _ _)
    have order : ((Item.entries [item]).map Entry.key).reverse =
        (Item.entries [item]).map Entry.key := by cases item <;> rfl
    rw [List.map_cons, run, List.append_assoc, List.append_assoc, List.length_cons,
      Nat.add_right_comm, one, more, split, List.map_append, List.reverse_append, order,
      List.append_assoc, build, build, build, List.foldl_append, List.isEmpty_cons, Bool.and_false,
      Bool.false_and]

theorem fields_end (first : Bool) :
    fields known open_ (fuel + 1) first seen r ('\x7d' :: rest) = some ((seen, r), rest) := by
  simp [fields, skipBlanks_cons (c := '\x7d') rfl]

/-! ### Objects -/

/-- A reader takes the fields at the front of an object. -/
theorem record_run (h : Readable known open_ items) (start : ρ)
    (closes : items ≠ [] → Closes after) :
    ∃ fuel, record known open_ start ('\x7b' :: (run true (items.map Item.pair) ++ after)) =
      (fields known open_ (fuel + 1) items.isEmpty ((Item.entries items).map Entry.key).reverse
        (build (Item.entries items) start) after).bind fun ((seen, r), rest) =>
          if known.all fun f => seen.contains f.key then some (r, rest) else none := by
  have room : items.length ≤ (run true (items.map Item.pair) ++ after).length := by
    have enough := length_le_run true (items.map Item.pair)
    rw [List.length_map] at enough
    rw [List.length_append]
    omega
  obtain ⟨fuel, size⟩ := Nat.exists_eq_add_of_le room
  have taken := fields_run h (fun _ _ => List.not_mem_nil) true (fuel + 1) start closes
  rw [List.append_nil, Bool.true_and] at taken
  refine ⟨fuel, ?_⟩
  rw [← taken, record, skipBlanks_cons (c := '\x7b') rfl]
  simp only [size, Nat.add_assoc]
  rfl

theorem object_chars (pairs : List (String × Json)) (rest : List Char) :
    (Json.object pairs).chars ++ rest = '\x7b' :: (run true pairs ++ '\x7d' :: rest) := by
  rw [chars_object, fieldChars_eq_run, List.cons_append, List.cons_append, List.append_assoc,
    List.singleton_append]

/-- **An object** with all the fields of a record, in any order, is read as the record that they
build. -/
theorem record_object (h : Readable known open_ items) (start : ρ)
    (complete : ∀ f ∈ known, f.key ∈ (Item.entries items).map Entry.key) (rest : List Char) :
    record known open_ start ((Json.object (items.map Item.pair)).chars ++ rest) =
      some (build (Item.entries items) start, rest) := by
  obtain ⟨fuel, taken⟩ := record_run h start fun _ => .brace rest
  have all : (known.all fun f =>
      ((Item.entries items).map Entry.key).reverse.contains f.key) = true :=
    List.all_eq_true.mpr fun f mem =>
      List.contains_iff_mem.mpr (List.mem_reverse.mpr (complete f mem))
  rw [object_chars, taken, fields_end]
  exact if_pos all

/-- **An object that lacks a field** of the record is refused. -/
theorem record_missing (h : Readable known open_ items) (start : ρ) {f : Field ρ} (mem : f ∈ known)
    (missing : f.key ∉ (Item.entries items).map Entry.key) (rest : List Char) :
    record known open_ start ((Json.object (items.map Item.pair)).chars ++ rest) = none := by
  obtain ⟨fuel, taken⟩ := record_run h start fun _ => .brace rest
  have lacks : ¬ (known.all fun f =>
      ((Item.entries items).map Entry.key).reverse.contains f.key) = true := fun all =>
    missing (List.mem_reverse.mp (List.contains_iff_mem.mp (List.all_eq_true.mp all f mem)))
  rw [object_chars, taken, fields_end]
  exact if_neg lacks

/-- **An object with a field that comes again,** or that a closed record does not have, is
refused. -/
theorem record_refused (h : Readable known open_ items) (start : ρ) {key : String}
    (bad : key ∈ (Item.entries items).map Entry.key ∨
      open_ = false ∧ known.find? (·.key = key) = none) (value : Json)
    (pairs : List (String × Json)) (rest : List Char) :
    record known open_ start
      ((Json.object (items.map Item.pair ++ (key, value) :: pairs)).chars ++ rest) = none := by
  have closes : items ≠ [] →
      Closes (run items.isEmpty ((key, value) :: pairs) ++ '\x7d' :: rest) := fun some_ => by
    rw [List.isEmpty_eq_false_iff.mpr some_]
    exact .comma _
  obtain ⟨fuel, taken⟩ := record_run h start closes
  rw [object_chars, run_append, List.append_assoc, Bool.true_and, List.isEmpty_map, taken, run,
    List.append_assoc, List.append_assoc]
  rcases bad with again | ⟨closed, unknown⟩
  · obtain ⟨e, mem, rfl⟩ := List.mem_map.mp again
    have seen : e.key ∈ ((Item.entries items).map Entry.key).reverse := List.mem_reverse.mpr again
    rw [fields_pair _ value (h.there e (Item.mem_entries.mp mem))]
    simp only [seen, if_true, Option.bind_none]
  · rw [fields_pair _ value unknown, closed]
    rfl

end Objects

/-! ### Arrays -/

/-- The values of an array are read one after the other. -/
theorem positional_values (entries : List (Entry ρ)) (r : ρ) (rest : List Char) :
    positional (entries.map Entry.field) false r (itemsTail Entry.value entries ++ ']' :: rest) =
      some (build entries r, rest) := by
  induction entries generalizing r with
  | nil => simp [itemsTail, positional, skip_cons (c := ']') rfl, build]
  | cons e entries ih =>
    have one := e.reads r _ (closes_itemsTail Entry.value entries rest)
    rw [List.map_cons, positional, itemsTail, List.flatMap_cons, List.cons_append,
      List.cons_append, List.append_assoc, ← itemsTail, if_neg Bool.false_ne_true,
      skip_cons (c := ',') rfl]
    simp only [bind, Option.bind_some, one, ih (e.put r)]
    rfl

/-- **An array** of the values of a record is read as the record that they build. -/
theorem record_array (entries : List (Entry ρ)) (open_ : Bool) (start : ρ) (rest : List Char) :
    record (entries.map Entry.field) open_ start
        ((Json.array (entries.map Entry.value)).chars ++ rest) =
      some (build entries start, rest) := by
  rw [chars_array, List.cons_append, List.cons_append, List.append_assoc, List.singleton_append,
    record, skipBlanks_cons (c := '[') rfl]
  cases entries with
  | nil => simp [itemChars_nil, positional, skip_cons (c := ']') rfl, build]
  | cons e entries =>
    have one := e.reads start _ (closes_itemsTail Entry.value entries rest)
    have more := positional_values entries (e.put start) rest
    rw [itemChars_map, List.append_assoc]
    simp only [List.map_cons, positional, if_true, bind, Option.bind_some, one, more]
    rfl

/-! ### Types of records -/

/-- The fields of an object that are none of the record are passed over. -/
def Passed (entries : List (Entry ρ)) (open_ : Bool) (items : List (Item ρ)) : Prop :=
  ∀ key value, .other key value ∈ items →
    open_ = true ∧ key ∉ entries.map Entry.key ∧ Fits depthLimit value

/-- The texts of a record: an object that has each of its fields once, in any order, and others if
it is open; or the array of its values. -/
inductive Spelling (entries : List (Entry ρ)) (open_ : Bool) : Json → Prop where
  | object {items : List (Item ρ)} (own : (Item.entries items).Perm entries)
      (passed : Passed entries open_ items) : Spelling entries open_ (.object (items.map Item.pair))
  | array : Spelling entries open_ (.array (entries.map Entry.value))

/-- What is written for a record is one of its spellings. -/
theorem spelling_pairs (entries : List (Entry ρ)) (open_ : Bool) :
    Spelling entries open_ (.object (entries.map Entry.pair)) := by
  have own : Spelling entries open_ (.object ((entries.map Item.own).map Item.pair)) :=
    .object (by rw [Item.entries_own]) fun key value mem => by
      obtain ⟨e, -, same⟩ := List.mem_map.mp mem
      cases same
  rwa [List.map_map] at own

/-- A reader of records, and their fields with their values.  The fields build the record, whatever
they are put into, and no two of them get in each other's way. -/
structure Layout (read : Typed ρ) (open_ : Bool) (entries : ρ → List (Entry ρ)) : Prop where
  reader : ∀ r, ∃ start, read = record ((entries r).map Entry.field) open_ start
  builds : ∀ r start, build (entries r) start = r
  distinct : ∀ r, ((entries r).map Entry.key).Nodup
  commute : ∀ r, ∀ e ∈ entries r, ∀ f ∈ entries r, ∀ s, f.put (e.put s) = e.put (f.put s)

/-- Which texts are read as records. -/
structure Spelled (read : Typed ρ) (open_ : Bool) (entries : ρ → List (Entry ρ)) : Prop where
  /-- Every spelling of a record is read as the record. -/
  spelling : ∀ r json, Spelling (entries r) open_ json → parse read json.render = some r
  /-- A field that is missing is missed. -/
  lacking : ∀ r items, (Item.entries items).Subperm (entries r) → Passed (entries r) open_ items →
    (Item.entries items).length < (entries r).length →
    parse read (Json.object (items.map Item.pair)).render = none
  /-- A field that comes again, or that a closed record does not have, is refused. -/
  refused : ∀ r items, (Item.entries items).Subperm (entries r) → Passed (entries r) open_ items →
    ∀ key, key ∈ (Item.entries items).map Entry.key ∨
        open_ = false ∧ key ∉ (entries r).map Entry.key →
      ∀ value pairs,
        parse read (Json.object (items.map Item.pair ++ (key, value) :: pairs)).render = none

theorem find?_key {entries : List (Entry ρ)} (distinct : (entries.map Entry.key).Nodup)
    {e : Entry ρ} (mem : e ∈ entries) :
    (entries.map Entry.field).find? (·.key = e.key) = some e.field := by
  obtain ⟨f, found⟩ : ∃ f, (entries.map Entry.field).find? (·.key = e.key) = some f :=
    Option.isSome_iff_exists.mp
      (List.find?_isSome.mpr ⟨e.field, List.mem_map_of_mem mem, by simp [Entry.key]⟩)
  obtain ⟨e', mem', rfl⟩ := List.mem_map.mp (List.mem_of_find?_eq_some found)
  have same := List.find?_some found
  rw [found, List.inj_on_of_nodup_map distinct mem' mem (of_decide_eq_true same)]

theorem find?_key_eq_none {entries : List (Entry ρ)} {key : String} :
    (entries.map Entry.field).find? (·.key = key) = none ↔ key ∉ entries.map Entry.key := by
  simp [List.find?_eq_none, Entry.key]

theorem nodup_keys {some_ entries : List (Entry ρ)} (distinct : (entries.map Entry.key).Nodup)
    (part : some_.Subperm entries) : (some_.map Entry.key).Nodup := by
  obtain ⟨ordered, order, part⟩ := part
  exact (order.map Entry.key).nodup (distinct.sublist (part.map Entry.key))

/-- Some fields of a record can be read. -/
theorem readable_of_subperm {entries : List (Entry ρ)} {open_ : Bool} {items : List (Item ρ)}
    (distinct : (entries.map Entry.key).Nodup) (own : (Item.entries items).Subperm entries)
    (passed : Passed entries open_ items) :
    Readable (entries.map Entry.field) open_ items where
  there e mem := find?_key distinct (own.subset (Item.mem_entries.mpr mem))
  once := nodup_keys distinct own
  others key value mem := by
    obtain ⟨opened, unknown, fits⟩ := passed key value mem
    exact ⟨opened, find?_key_eq_none.mpr unknown, fits⟩

namespace Layout

variable {read : Typed ρ} {open_ : Bool} {entries : ρ → List (Entry ρ)} {r : ρ} {json : Json}

/-- **Every spelling** of a record is read off the front of a text. -/
theorem reads (h : Layout read open_ entries) (spelling : Spelling (entries r) open_ json)
    (rest : List Char) : read (json.chars ++ rest) = some (r, rest) := by
  obtain ⟨start, rfl⟩ := h.reader r
  cases spelling with
  | array => rw [record_array, h.builds]
  | @object items own passed =>
    have readable := readable_of_subperm (h.distinct r) own.subperm passed
    have complete : ∀ f ∈ (entries r).map Entry.field,
        f.key ∈ (Item.entries items).map Entry.key := fun f mem => by
      obtain ⟨e, there, rfl⟩ := List.mem_map.mp mem
      exact List.mem_map_of_mem (own.mem_iff.mpr there)
    have order : build (Item.entries items) start = build (entries r) start :=
      own.foldl_eq' (fun e he f hf s =>
        h.commute r e (own.mem_iff.mp he) f (own.mem_iff.mp hf) s) start
    rw [record_object readable start complete, order, h.builds]

theorem restores (h : Layout read open_ entries) :
    Restores read fun r => .object ((entries r).map Entry.pair) :=
  fun r rest _ => h.reads (spelling_pairs (entries r) open_) rest

/-- **Which texts are read:** all spellings of a record, and no text that lacks one of its fields,
has one twice, or, of a closed record, has another one. -/
theorem spelled (h : Layout read open_ entries) : Spelled read open_ entries where
  spelling r json spelling := parse_of_read (h.reads spelling [])
  lacking r items own passed fewer := by
    obtain ⟨start, rfl⟩ := h.reader r
    have readable := readable_of_subperm (h.distinct r) own passed
    obtain ⟨e, more⟩ := own.exists_of_length_lt fewer
    have missing : e.key ∉ (Item.entries items).map Entry.key :=
      (List.nodup_cons.mp (nodup_keys (h.distinct r) more)).1
    have there : e.field ∈ (entries r).map Entry.field :=
      List.mem_map_of_mem (more.subset List.mem_cons_self)
    exact parse_of_refused (record_missing readable start there missing [])
  refused r items own passed key bad value pairs := by
    obtain ⟨start, rfl⟩ := h.reader r
    have readable := readable_of_subperm (h.distinct r) own passed
    have unread := bad.imp_right (And.imp_right find?_key_eq_none.mpr)
    exact parse_of_refused (record_refused readable start unread value pairs [])

end Layout

end HotReload.Json.Typed
