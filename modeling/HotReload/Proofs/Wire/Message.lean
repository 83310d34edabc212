import HotReload.Message
import HotReload.Proofs.Wire.Reading

/-!
# Messages on the wire

A client that reads the text of a message as JSON and takes the fields by their names gets the
message back. `Message.read?` is such a client: it knows a message by its `type`, takes the keys of
an inverse map for numbers, and takes a field that may be left out for absent where it is.

* `Message.ofJson?`, `Message.read?`: the decoder, from a JSON value and from a text.
* `Message.ofJson?_toJson`: it undoes the encoding into JSON.
* `Message.fits`: the encoding nests four deep at most, so that its text is read.
* `Message.wire_lossless`: every message is recovered from its text, and no two share one.
-/

namespace HotReload

namespace Json

/-! ### Reading off values -/

/-- The text that a value is. -/
def text? : Json → Option String
  | .string text => some text
  | _ => none

/-- The number below `2^32` that a value is. -/
def id? : Json → Option ModuleId
  | .number literal => (Number.unsigned? 32 literal).map UInt32.ofNat
  | _ => none

/-- The list that a value is, its items read one by one. -/
def list? {α : Type} (read : Json → Option α) : Json → Option (List α)
  | .array items => items.mapM read
  | _ => none

/-- A field that may be left out. -/
def optional? {α : Type} (read : Json → Option α) (value : Json) (key : String) :
    Option (Option α) :=
  match value.field? key with
  | some inner => (read inner).map some
  | none => some none

end Json

open Json

/-- The code that a value is. -/
def CodeUnit.ofJson? (value : Json) : Option CodeUnit := do
  let id ← (value.field? "id").bind id?
  let code ← (value.field? "code").bind text?
  some ⟨id, code⟩

/-- The inverse map that a value is: its keys are numbers. -/
def InverseMap.ofJson? : Json → Option InverseMap
  | .object fields => fields.mapM fun (key, value) => do
    let id ← Number.unsigned? 32 key
    let ids ← value.list? id?
    some (UInt32.ofNat id, ids)
  | _ => none

/-- The payload that a value is. -/
def Payload.ofJson? (value : Json) : Option Payload := do
  let modules ← (value.field? "modules").bind (list? CodeUnit.ofJson?)
  let inverse ← (value.field? "inverseDependencies").bind InverseMap.ofJson?
  let sourceUrls ← (value.field? "sourceURLs").bind (list? text?)
  let mapUrls ← (value.field? "sourceMappingURLs").bind (list? text?)
  let deleted ← value.optional? (list? id?) "deletedModules"
  some { modules, inverse, sourceUrls, mapUrls, deleted := deleted.getD [] }

/-- The report that a value is. -/
def Report.ofJson? (value : Json) : Option Report := do
  let kind ← ((value.field? "type").bind text?).bind ReportKind.named?
  let description ← (value.field? "description").bind text?
  let file ← value.optional? text? "filename"
  let line ← value.optional? id? "lineNumber"
  some { kind, description, file, line }

namespace Message

/-- The message that a value is. -/
def ofJson? (value : Json) : Option Message := do
  match ← (value.field? "type").bind text? with
  | "update-start" => some .updateStart
  | "update-done" => some .updateDone
  | "update" => ((value.field? "body").bind Payload.ofJson?).map .update
  | "error" => ((value.field? "body").bind Report.ofJson?).map .error
  | _ => none

/-- The message that a text spells. -/
def read? (text : String) : Option Message := (parse text).toOption.bind ofJson?

end Message

/-! ### Decoding undoes encoding -/

theorem mapM_map_eq_some {α β : Type} {write : α → β} {read : β → Option α} {xs : List α}
    (h : ∀ x ∈ xs, read (write x) = some x) : (xs.map write).mapM read = some xs := by
  induction xs with
  | nil => rfl
  | cons x xs ih =>
    rw [List.map_cons, List.mapM_cons, h x List.mem_cons_self,
      ih fun y mem => h y (List.mem_cons_of_mem _ mem)]
    rfl

namespace Json

theorem unsigned?_id (id : ModuleId) : Number.unsigned? 32 (toString id) = some id.toNat :=
  Number.unsigned?_toString 32 id.toNat_lt

@[simp] theorem id?_nat (id : ModuleId) : (nat id.toNat).id? = some id := by
  have read := Number.unsigned?_toString 32 id.toNat_lt
  rw [nat, id?, read, Option.map_some, UInt32.ofNat_toNat]

theorem list?_map {α : Type} {write : α → Json} {read : Json → Option α}
    (h : ∀ x, read (write x) = some x) (xs : List α) :
    (Json.array (xs.map write)).list? read = some xs :=
  mapM_map_eq_some fun x _ => h x

theorem list?_strings (texts : List String) : (strings texts).list? text? = some texts :=
  mapM_map_eq_some fun text _ => show (Json.string text).text? = some text from rfl

theorem list?_ids (ids : List ModuleId) :
    (Json.array (ids.map fun id => nat id.toNat)).list? id? = some ids :=
  list?_map id?_nat ids

end Json

theorem CodeUnit.ofJson?_toJson (u : CodeUnit) : ofJson? u.toJson = some u := by
  simp [ofJson?, toJson, field?, List.lookup_cons, text?]

theorem InverseMap.ofJson?_toJson (m : InverseMap) : ofJson? (toJson m) = some m := by
  refine mapM_map_eq_some fun e _ => ?_
  simp [unsigned?_id, list?_ids]

theorem Payload.ofJson?_toJson (p : Payload) : ofJson? p.toJson = some p := by
  obtain ⟨modules, inverse, sourceUrls, mapUrls, deleted⟩ := p
  have units := list?_map CodeUnit.ofJson?_toJson modules
  -- the field of the deleted modules is left out or there
  cases none : deleted.isEmpty with
  | true =>
    obtain rfl := List.isEmpty_iff.mp none
    simp [ofJson?, toJson, field?, optional?, List.lookup_cons, InverseMap.ofJson?_toJson,
      list?_strings, units]
  | false =>
    simp [ofJson?, toJson, field?, optional?, List.lookup_cons, InverseMap.ofJson?_toJson,
      list?_strings, list?_ids, units, none]

theorem Report.ofJson?_toJson (r : Report) : ofJson? r.toJson = some r := by
  obtain ⟨kind, description, file, line⟩ := r
  have named : ReportKind.named? kind.name = some kind := by cases kind <;> rfl
  cases file <;> cases line <;>
    simp [ofJson?, toJson, field?, optional?, List.lookup_cons, text?, named]

theorem Message.ofJson?_toJson (m : Message) : ofJson? m.toJson = some m := by
  cases m with
  | updateStart => rfl
  | updateDone => rfl
  | update payload =>
    simp [ofJson?, toJson, field?, List.lookup_cons, kind, text?, payload.ofJson?_toJson]
  | error report =>
    simp [ofJson?, toJson, field?, List.lookup_cons, kind, text?, report.ofJson?_toJson]

/-! ### The text of a message is read -/

namespace Json

variable {depth : Nat}

/-- What fits in a bound fits in a larger one. -/
theorem Fits.mono {value : Json} (h : Fits depth value) : ∀ {more : Nat}, depth ≤ more →
    Fits more value := by
  induction h with
  | null => exact fun _ => .null
  | bool value => exact fun _ => .bool value
  | nat small => exact fun _ => .nat small
  | string text => exact fun _ => .string text
  | array inner ih =>
    intro more le
    obtain ⟨more, rfl⟩ := Nat.exists_eq_add_of_le' (Nat.one_le_of_lt le)
    exact .array fun item mem => ih item mem (by omega)
  | object inner ih =>
    intro more le
    obtain ⟨more, rfl⟩ := Nat.exists_eq_add_of_le' (Nat.one_le_of_lt le)
    exact .object fun field mem => ih field mem (by omega)

theorem Fits.id (id : ModuleId) : Fits depth (Json.nat id.toNat) :=
  .nat (Nat.lt_trans id.toNat_lt (by decide))

theorem Fits.map {α : Type} {write : α → Json} (h : ∀ x, Fits depth (write x)) (xs : List α) :
    Fits (depth + 1) (.array (xs.map write)) := by
  refine .array fun item mem => ?_
  obtain ⟨x, -, rfl⟩ := List.mem_map.mp mem
  exact h x

end Json

theorem CodeUnit.fits (u : CodeUnit) : Fits 1 u.toJson := by
  refine .object fun field mem => ?_
  simp only [List.mem_cons, List.not_mem_nil, or_false] at mem
  obtain rfl | rfl := mem
  · exact .id u.id
  · exact .string u.code

theorem InverseMap.fits (m : InverseMap) : Fits 2 (toJson m) := by
  refine .object fun field mem => ?_
  obtain ⟨e, -, rfl⟩ := List.mem_map.mp mem
  exact .map Fits.id e.2

theorem Payload.fits (p : Payload) : Fits 3 p.toJson := by
  refine .object fun field mem => ?_
  simp only [List.mem_append, List.mem_cons, List.not_mem_nil, or_false] at mem
  obtain (rfl | rfl | rfl | rfl) | gone := mem
  · exact .map CodeUnit.fits p.modules
  · exact InverseMap.fits p.inverse
  · exact .map Fits.string p.sourceUrls
  · exact .map Fits.string p.mapUrls
  · split at gone
    · cases gone
    · obtain rfl := List.mem_singleton.mp gone
      exact .map Fits.id p.deleted

theorem Report.fits (r : Report) : Fits 1 r.toJson := by
  refine .object fun field mem => ?_
  simp only [List.mem_append, List.mem_cons, List.not_mem_nil, or_false, Option.mem_toList,
    Option.map_eq_some_iff] at mem
  obtain ((rfl | rfl) | ⟨file, -, rfl⟩) | ⟨line, -, rfl⟩ := mem
  · exact .string r.kind.name
  · exact .string r.description
  · exact .string file
  · exact .id line

/-- A message nests four deep. -/
theorem Message.fits (m : Message) : Fits 4 m.toJson := by
  have named (m : Message) : Fits 3 (.string m.kind) := .string m.kind
  cases m with
  | updateStart | updateDone =>
    refine .object fun field mem => ?_
    obtain rfl := List.mem_singleton.mp mem
    exact named _
  | update payload =>
    refine .object fun field mem => ?_
    simp only [List.mem_cons, List.not_mem_nil, or_false] at mem
    obtain rfl | rfl := mem
    · exact named _
    · exact payload.fits
  | error report =>
    refine .object fun field mem => ?_
    simp only [List.mem_cons, List.not_mem_nil, or_false] at mem
    obtain rfl | rfl := mem
    · exact named _
    · exact report.fits.mono (by decide)

namespace Message

/-- The text of a message is JSON, and spells what was encoded. -/
theorem parse_wire (m : Message) : parse m.wire = .ok m.toJson :=
  parse_render (m.fits.mono (by decide))

/-- The decoder recovers a message from its text. -/
theorem read?_wire (m : Message) : read? m.wire = some m := by
  rw [read?, parse_wire]
  exact ofJson?_toJson m

/-- **The encoding loses nothing.** The text of every message is JSON that spells what was encoded,
one decoder recovers every message from its text, and so no two messages share a text. -/
theorem wire_lossless :
    (∀ m : Message, parse m.wire = .ok m.toJson) ∧ (∀ m : Message, read? m.wire = some m) ∧
      Function.Injective wire := by
  refine ⟨parse_wire, read?_wire, fun m m' same => ?_⟩
  have read : some m = some m' := by rw [← read?_wire m, same, read?_wire m']
  exact Option.some.inj read

end Message

end HotReload
