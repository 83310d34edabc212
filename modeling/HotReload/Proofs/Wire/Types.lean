import HotReload.Message
import HotReload.Proofs.Wire.Record
import HotReload.Settings

/-!
# The types that are written and read

Modules, code, classes of faults, endpoints, the status and the settings have a text each, and a
reader that takes many more texts than this one: fields in any order, a record as the array of its
fields, blanks, escapes, names as objects, and, but for the settings, fields that it does not know.

* `Json.Typed.layout_module`, `layout_codeUnit`, …: the fields of each type of records.
* `Json.Typed.records_spelled`: which texts are read as a record.
* `Json.Typed.types_lossless`: what is written is read as the same value, and a text in any other
  spelling may be replaced by the one that is written for its value.
-/

namespace HotReload.Json.Typed

/-! ### Numbers, names and paths -/

theorem restores_moduleId : Restores moduleId fun id => .nat id.toNat := by
  intro id rest closes
  have read := unsigned_nat 32 id.toNat_lt (Nat.lt_trans id.toNat_lt (by decide)) closes
  simp [moduleId, read]

theorem restores_port : Restores port fun port => .nat port.toNat := by
  intro port rest closes
  have read :=
    unsigned_nat 16 port.toNat_lt (Nat.lt_trans port.toNat_lt (by decide)) closes
  simp [Typed.port, read]

theorem restores_word64 : Restores word64 fun word => .nat word.toNat := by
  intro word rest closes
  have read := unsigned_nat 64 word.toNat_lt word.toNat_lt closes
  simp [word64, read]

theorem restores_path : Restores path fun p => .string p.text :=
  restores_text.map fun _ => rfl

theorem restores_texts : Restores (list text) Json.strings :=
  restores_list restores_text fun s => .string s

theorem restores_moduleKind : Restores moduleKind fun kind => .string kind.name :=
  restores_variant fun kind => by cases kind <;> rfl

theorem restores_reportKind : Restores reportKind fun kind => .string kind.name :=
  restores_variant fun kind => by cases kind <;> rfl

/-! ### Records -/

/-- The fields of a module. -/
def moduleEntries (m : Module) : List (Entry Module) :=
  [.of "id" (fun m id => { m with id }) restores_moduleId m.id,
   .of "path" (fun m path => { m with path }) restores_path m.path,
   .of "kind" (fun m kind => { m with kind }) restores_moduleKind m.kind]

/-- The fields of a module's code. -/
def codeUnitEntries (u : CodeUnit) : List (Entry CodeUnit) :=
  [.of "id" (fun u id => { u with id }) restores_moduleId u.id,
   .of "code" (fun u code => { u with code }) restores_text u.code]

/-- The fields of an endpoint. -/
def endpointEntries (e : Endpoint) : List (Entry Endpoint) :=
  [.of "host" (fun e host => { e with host }) restores_text e.host,
   .of "port" (fun e port => { e with port }) restores_port e.port]

/-- The fields of the status. -/
def statusEntries (s : Status) : List (Entry Status) :=
  [.of "sessions" (fun s sessions => { s with sessions }) restores_word64 s.sessions,
   .of "listening" (fun s listening => { s with listening }) restores_flag s.listening]

/-- The fields of the settings. -/
def settingsEntries (s : Settings) : List (Entry Settings) :=
  [.of "root" (fun s root => { s with root }) restores_path s.root,
   .of "host" (fun s host => { s with host }) restores_text s.host,
   .of "port" (fun s port => { s with port }) restores_port s.port,
   .of "debounce_ms" (fun s debounceMs => { s with debounceMs }) restores_word64 s.debounceMs,
   .of "watch_ignore" (fun s watchIgnore => { s with watchIgnore }) restores_texts s.watchIgnore,
   .of "extensions" (fun s extensions => { s with extensions }) restores_texts s.extensions]

theorem layout_module : Layout module true moduleEntries where
  reader _ := ⟨default, rfl⟩
  builds _ _ := rfl
  distinct _ := by simp [moduleEntries, Entry.key, Entry.of, field]
  commute _ := by simp [moduleEntries, Entry.of]

theorem layout_codeUnit : Layout codeUnit true codeUnitEntries where
  reader _ := ⟨default, rfl⟩
  builds _ _ := rfl
  distinct _ := by simp [codeUnitEntries, Entry.key, Entry.of, field]
  commute _ := by simp [codeUnitEntries, Entry.of]

theorem layout_endpoint : Layout endpoint true endpointEntries where
  reader _ := ⟨_, rfl⟩
  builds _ _ := rfl
  distinct _ := by simp [endpointEntries, Entry.key, Entry.of, field]
  commute _ := by simp [endpointEntries, Entry.of]

theorem layout_status : Layout status true statusEntries where
  reader _ := ⟨default, rfl⟩
  builds _ _ := rfl
  distinct _ := by simp [statusEntries, Entry.key, Entry.of, field]
  commute _ := by simp [statusEntries, Entry.of]

theorem layout_settings : Layout settings false settingsEntries where
  reader _ := ⟨_, rfl⟩
  builds _ _ := rfl
  distinct _ := by simp [settingsEntries, Entry.key, Entry.of, field]
  commute _ := by simp [settingsEntries, Entry.of]

/-- **Which texts are read** as a record of each type.  Fields come in any order, or as an array;
others are passed over, but for the settings, which refuse them. -/
theorem records_spelled :
    Spelled module true moduleEntries ∧ Spelled codeUnit true codeUnitEntries ∧
      Spelled endpoint true endpointEntries ∧ Spelled status true statusEntries ∧
      Spelled settings false settingsEntries :=
  ⟨layout_module.spelled, layout_codeUnit.spelled, layout_endpoint.spelled, layout_status.spelled,
    layout_settings.spelled⟩

/-- A class of faults may be the only key of an object. -/
theorem parse_reportKind_object (kind : ReportKind) :
    parse reportKind (Json.object [(kind.name, .null)]).render = some kind :=
  parse_of_read (variant_object ReportKind.named? ReportKind.name
    (fun kind => by cases kind <;> rfl) kind [])

theorem restores_module : Restores module Module.toJson := layout_module.restores

theorem restores_codeUnit : Restores codeUnit CodeUnit.toJson := layout_codeUnit.restores

theorem restores_endpoint : Restores endpoint Endpoint.toJson := layout_endpoint.restores

theorem restores_status : Restores status Status.toJson := layout_status.restores

theorem restores_settings : Restores settings Settings.toJson := layout_settings.restores

/-! ### Whole texts -/

/-- Nothing is lost between a writer and a reader: what is written is read as the same value, and
whatever text a value was read from, the text that is written for it is read as the same value. -/
structure Lossless {α : Type} (read : Typed α) (write : α → Json) : Prop where
  written : ∀ value, parse read (write value).render = some value
  rewritten : ∀ source value, parse read source = some value →
    parse read (write value).render = parse read source

theorem Restores.lossless {α : Type} {read : Typed α} {write : α → Json}
    (h : Restores read write) : Lossless read write :=
  ⟨parse_render h, fun _ value accepted => (parse_render h value).trans accepted.symm⟩

/-- **Nothing is lost** between the writer and the reader of any of the types. -/
theorem types_lossless :
    Lossless module Module.toJson ∧ Lossless codeUnit CodeUnit.toJson ∧
      Lossless reportKind (fun kind => .string kind.name) ∧ Lossless endpoint Endpoint.toJson ∧
      Lossless status Status.toJson ∧ Lossless settings Settings.toJson :=
  ⟨restores_module.lossless, restores_codeUnit.lossless, restores_reportKind.lossless,
    restores_endpoint.lossless, restores_status.lossless, restores_settings.lossless⟩

end HotReload.Json.Typed
