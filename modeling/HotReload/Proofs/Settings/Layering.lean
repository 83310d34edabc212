import HotReload.Proofs.Assoc
import HotReload.Proofs.Path.Clean
import HotReload.Settings.Load
import Mathlib.Data.List.Forall2
import Mathlib.Tactic.MkIffOfInductiveProp

/-!
# Settings from several sources

Flags, the environment and a file each set some of the settings.  Where the values are of the right
type, every setting is that of the first source that sets it, whatever the sources say of the
others: a flag that is not set hides nothing, and of two lists one is taken whole.

* `Choice`: what one source sets; `Layer.Holds`: a layer says this and nothing else.
* `Settings.chosen`: each setting from the first source that sets it.
* `Settings.fault?_eq_none_iff`: the settings without a fault are the usable ones.
* `Settings.madeOf_iff`: what is made of sources is made of what they set.
* `Settings.load_layered`: when the settings are loaded, and which ones.
-/

namespace HotReload

/-! ### Sources -/

/-- What one source sets. -/
structure Choice where
  root : Option Path := none
  host : Option String := none
  port : Option UInt16 := none
  debounceMs : Option UInt64 := none
  watchIgnore : Option (List String) := none
  extensions : Option (List String) := none

/-- What a command line sets. -/
def Choice.ofOptions (o : ServeOptions) : Choice :=
  { root := o.root, host := o.host, port := o.port, debounceMs := o.debounceMs }

namespace Layer

/-- What a layer says under a key reads as the given value; it says nothing where none is given. -/
def Gives {α : Type} (layer : Layer) (key : String) (read : LooseValue → Option α)
    (value : Option α) : Prop :=
  (Assoc.get? layer key).map read = value.map some

/-- A layer says what a source sets, each value in the right type, and nothing else. -/
@[mk_iff]
structure Holds (layer : Layer) (c : Choice) : Prop where
  known : ∀ e ∈ layer, e.1 ∈ Settings.keys
  root : layer.Gives "root" LooseValue.text? (c.root.map Path.text)
  host : layer.Gives "host" LooseValue.text? c.host
  port : layer.Gives "port" (LooseValue.word? 16) (c.port.map UInt16.toNat)
  debounceMs : layer.Gives "debounce_ms" (LooseValue.word? 64) (c.debounceMs.map UInt64.toNat)
  watchIgnore : layer.Gives "watch_ignore" LooseValue.texts? c.watchIgnore
  extensions : layer.Gives "extensions" LooseValue.texts? c.extensions

instance decidableGives {α : Type} [DecidableEq α] (layer : Layer) (key : String)
    (read : LooseValue → Option α) (value : Option α) : Decidable (layer.Gives key read value) :=
  inferInstanceAs (Decidable (_ = _))

instance decidableHolds (layer : Layer) (c : Choice) : Decidable (layer.Holds c) :=
  decidable_of_iff _ (holds_iff layer c).symm

theorem word?_whole {bits n : Nat} (fits : n < 1 <<< bits) :
    LooseValue.word? bits (.whole n) = some n := by
  show (if n < 1 <<< bits then some n else none) = some n
  rw [if_pos fits]

/-- A value that may not be there, in front of others. -/
theorem get?_flag {α : Type} (value : Option α) (own key : String) (f : α → LooseValue)
    (rest : Layer) :
    Assoc.get? ((value.map fun v => (own, f v)).toList ++ rest) key =
      if own == key then (value.map f).or (Assoc.get? rest key) else Assoc.get? rest key := by
  cases value with
  | none => simp
  | some v => rw [Option.map_some, Option.toList_some, List.singleton_append, Assoc.get?_cons]; rfl

/-- **A flag that is not set says nothing.** -/
theorem holds_ofOptions (o : ServeOptions) : (ofOptions o).Holds (.ofOptions o) := by
  have port (n : UInt16) : LooseValue.word? 16 (.whole n.toNat) = some n.toNat :=
    word?_whole n.toNat_lt
  have debounceMs (n : UInt64) : LooseValue.word? 64 (.whole n.toNat) = some n.toNat :=
    word?_whole n.toNat_lt
  -- the last flag has nothing behind it
  have flags : ofOptions o = (o.root.map fun root => ("root", .string root.text)).toList ++
      ((o.host.map fun host => ("host", .string host)).toList ++
        ((o.port.map fun port => ("port", .whole port.toNat)).toList ++
          ((o.debounceMs.map fun ms => ("debounce_ms", .whole ms.toNat)).toList ++ []))) := by
    rw [ofOptions, List.append_nil, List.append_assoc, List.append_assoc]
  constructor
  · intro e mem
    simp only [ofOptions, List.mem_append, Option.mem_toList, Option.map_eq_some_iff] at mem
    rcases mem with ((⟨_, -, rfl⟩ | ⟨_, -, rfl⟩) | ⟨_, -, rfl⟩) | ⟨_, -, rfl⟩ <;>
      simp [Settings.keys]
  all_goals
    rw [Gives, flags, get?_flag, get?_flag, get?_flag, get?_flag]
    simp [Assoc.get?, Choice.ofOptions, Function.comp_def, LooseValue.text?, port, debounceMs]

end Layer

namespace Settings

/-! ### Layers -/

/-- Each setting from the first source that sets it. -/
def chosen (choices : List Choice) : Settings :=
  let usual : Settings := {}
  { root := (choices.findSome? Choice.root).getD usual.root
    host := (choices.findSome? Choice.host).getD usual.host
    port := (choices.findSome? Choice.port).getD usual.port
    debounceMs := (choices.findSome? Choice.debounceMs).getD usual.debounceMs
    watchIgnore := (choices.findSome? Choice.watchIgnore).getD usual.watchIgnore
    extensions := (choices.findSome? Choice.extensions).getD usual.extensions }

/-- What layers say under a key is what the first of them gives. -/
theorem said_of_gives {α : Type} {layers : List Layer} {choices : List Choice} {key : String}
    {read : LooseValue → Option α} {field : Choice → Option α}
    (gives : List.Forall₂ (fun layer c => layer.Gives key read (field c)) layers choices)
    (usual : α) : said layers key read usual = some ((choices.findSome? field).getD usual) := by
  induction gives with
  | nil => rfl
  | @cons layer c layers choices first _ ih =>
    rw [Layer.Gives] at first
    rw [said, Layer.value?, List.findSome?_cons]
    cases here : Assoc.get? layer key with
    | none =>
      rw [here, Option.map_none, eq_comm, Option.map_eq_none_iff] at first
      rw [List.findSome?_cons, first]
      exact ih
    | some value =>
      rw [here, Option.map_some] at first
      obtain ⟨v, given, reads⟩ := Option.map_eq_some_iff.mp first.symm
      rw [List.findSome?_cons, given]
      exact reads.symm

/-- What is read in another type than it is chosen in. -/
theorem findSome?_getD_map {α β : Type} {f : α → β} {g : β → α} (back : ∀ a, g (f a) = a)
    (choices : List Choice) (field : Choice → Option α) (usual : α) :
    g ((choices.findSome? fun c => (field c).map f).getD (f usual)) =
      (choices.findSome? field).getD usual := by
  have same : choices.findSome? (fun c => (field c).map f) = (choices.findSome? field).map f := by
    rw [List.map_findSome?]
    rfl
  rw [same, Option.getD_map, back]

/-- **What layers make** that say what sources set: each setting from the first source. -/
theorem ofLayers?_of_holds {layers : List Layer} {choices : List Choice}
    (holds : List.Forall₂ Layer.Holds layers choices) :
    ofLayers? layers = some (chosen choices) := by
  have known : (layers.all fun layer => layer.all fun entry => keys.contains entry.1) = true := by
    induction holds with
    | nil => rfl
    | cons first _ ih =>
      rw [List.all_cons, ih, Bool.and_true, List.all_eq_true]
      exact fun e mem => List.contains_iff_mem.mpr (first.known e mem)
  have root := said_of_gives (holds.imp fun _ _ h => h.root) (({} : Settings).root.text)
  have host := said_of_gives (holds.imp fun _ _ h => h.host) ({} : Settings).host
  have port := said_of_gives (holds.imp fun _ _ h => h.port) ({} : Settings).port.toNat
  have debounceMs :=
    said_of_gives (holds.imp fun _ _ h => h.debounceMs) ({} : Settings).debounceMs.toNat
  have watchIgnore :=
    said_of_gives (holds.imp fun _ _ h => h.watchIgnore) ({} : Settings).watchIgnore
  have extensions :=
    said_of_gives (holds.imp fun _ _ h => h.extensions) ({} : Settings).extensions
  unfold ofLayers?
  simp only [known, if_true, root, host, port, debounceMs, watchIgnore, extensions,
    Option.bind_eq_bind, Option.bind_some]
  rw [chosen]
  congr 2
  · exact findSome?_getD_map (f := Path.text) (g := Path.mk) (fun _ => rfl) choices
      Choice.root ⟨"."⟩
  · exact findSome?_getD_map (fun _ => UInt16.ofNat_toNat) choices Choice.port 8081
  · exact findSome?_getD_map (fun _ => UInt64.ofNat_toNat) choices Choice.debounceMs 50

/-! ### Faults -/

/-- **The settings without a fault are those the server can work with.** -/
theorem fault?_eq_none_iff {d : Disk} {s : Settings} : s.fault? d = none ↔ s.Usable d := by
  have bad : s.extensions.find? (fun e => !isExtension e) = none ↔
      ∀ e ∈ s.extensions, isExtension e = true := by
    rw [List.find?_eq_none]
    simp only [Bool.not_eq_true', Bool.not_eq_false]
  unfold fault?
  constructor
  · intro h
    split at h
    · cases h
    · next root =>
      split at h
      · cases h
      · next port =>
        split at h
        · cases h
        · next host =>
          split at h
          · cases h
          · next extensions =>
            rw [Option.map_eq_none_iff, bad] at h
            exact ⟨by simpa using root, port, host, by simpa using extensions, h⟩
  · rintro ⟨root, port, host, extensions, dotted⟩
    simp [root, port, host, extensions, bad.mpr dotted]

instance decidableUsable (s : Settings) (d : Disk) : Decidable (s.Usable d) :=
  decidable_of_iff ((s.fault? d).isNone = true)
    (Option.isNone_iff_eq_none.trans fault?_eq_none_iff)

/-! ### Loading -/

/-- An absolute root is the normal form of the path that leads to it. -/
theorem absolute_normalizes {here : Path} (rooted : here.isAbsolute = true) (p : Path) :
    (absolute here p).isAbsolute = true ∧
      Path.Component.Normalizes (here.join p).components (absolute here p).components := by
  obtain ⟨names, root, -, normal⟩ := Path.components_clean (Path.isAbsolute_join rooted p)
  exact ⟨(Path.isAbsolute_of_components root).1, normal⟩

/-- The settings that a command line, an environment and a file make. -/
def layered (here : Path) (o : ServeOptions) (environment file : Choice) : Settings :=
  let s := chosen [.ofOptions o, environment, file]
  { s with root := absolute here s.root }

/-- A file that is named has to be there; one that is not named is looked for. -/
theorem file?_cases (d : Disk) (here : Path) (o : ServeOptions) :
    (∃ missing, o.config = some missing ∧ d.isFile (here.join missing) = false ∧
      file? d here o = .error (.missing missing)) ∨
    (∀ f, o.config = some f → d.isFile (here.join f) = true) ∧
      ∃ f, file? d here o = .ok f := by
  unfold file?
  cases o.config with
  | none => exact .inr ⟨nofun, _, rfl⟩
  | some f =>
    cases there : d.isFile (here.join f) with
    | false => exact .inl ⟨f, rfl, there, by simp [there]⟩
    | true =>
      refine .inr ⟨?_, some f, by simp [there]⟩
      rintro _ ⟨⟩
      exact there

/-- What a file sets can be computed. -/
theorem exists_holds {d : Disk} {here : Path} {f : Option Path} {c : Choice}
    (h : ((fileLayer d here f).toOption.any fun layer => layer.Holds c) = true) :
    ∃ layer, fileLayer d here f = .ok layer ∧ layer.Holds c := by
  cases read : fileLayer d here f with
  | error fault =>
    rw [read] at h
    cases h
  | ok layer =>
    rw [read] at h
    exact ⟨layer, rfl, of_decide_eq_true h⟩

section Load

variable {d : Disk} {here : Path} {o : ServeOptions} {environment : List (String × String)}
  {s : Settings}

/-- The settings that layers make, with an absolute root. -/
def MadeOf (d : Disk) (here : Path) (o : ServeOptions) (environment : List (String × String))
    (file : Option Path) (s : Settings) : Prop :=
  ∃ layer made, fileLayer d here file = .ok layer ∧
    ofLayers? [Layer.ofOptions o, Layer.ofEnvironment environment, layer] = some made ∧
    s = { made with root := absolute here made.root }

variable {f : Option Path}

theorem load_of_lost {fault : SettingsFault} (lost : file? d here o = .error fault) :
    load d here o environment = .error fault := by
  rw [load, lost]
  rfl

theorem load_of_unread {fault : SettingsFault} (found : file? d here o = .ok f)
    (unread : fileLayer d here f = .error fault) : load d here o environment = .error fault := by
  rw [load, found]
  show (fileLayer d here f).bind _ = _
  rw [unread]
  rfl

/-- Loading where a file was found and read. -/
theorem load_of_read {layer : Layer} (found : file? d here o = .ok f)
    (read : fileLayer d here f = .ok layer) :
    load d here o environment =
      match ofLayers? [Layer.ofOptions o, Layer.ofEnvironment environment, layer] with
      | none => .error (.malformed "a setting is unknown or has a value of the wrong type")
      | some s =>
        match ({ s with root := absolute here s.root } : Settings).fault? d with
        | some fault => .error fault
        | none => .ok { s with root := absolute here s.root } := by
  rw [load, found]
  show (fileLayer d here f).bind _ = _
  rw [read]
  rfl

/-- **What is loaded** is made of the file that is found, and usable. -/
theorem load_eq_ok_iff :
    load d here o environment = .ok s ↔
      ∃ f, file? d here o = .ok f ∧ MadeOf d here o environment f s ∧ s.Usable d := by
  cases found : file? d here o with
  | error fault => simp [load_of_lost found]
  | ok f =>
    cases read : fileLayer d here f with
    | error fault => simp [load_of_unread found read, MadeOf, read]
    | ok layer =>
      rw [load_of_read found read]
      constructor
      · intro h
        split at h
        · cases h
        · next made layers =>
          split at h
          · cases h
          · next usable =>
            cases h
            exact ⟨f, rfl, ⟨layer, made, read, layers, rfl⟩, fault?_eq_none_iff.mp usable⟩
      · rintro ⟨_, ⟨⟩, ⟨_, made, read', layers, rfl⟩, usable⟩
        cases read.symm.trans read'
        simp only [layers, fault?_eq_none_iff.mpr usable]

variable {env file : Choice}

/-- What is made of sources is made of what they set. -/
theorem madeOf_iff (spoken : (Layer.ofEnvironment environment).Holds env)
    (read : ∃ layer, fileLayer d here f = .ok layer ∧ layer.Holds file) :
    MadeOf d here o environment f s ↔ s = layered here o env file := by
  obtain ⟨layer, read, holds⟩ := read
  have layers := ofLayers?_of_holds (.cons (Layer.holds_ofOptions o) (.cons spoken
    (.cons holds .nil)))
  constructor
  · rintro ⟨_, made, read', layers', rfl⟩
    cases read.symm.trans read'
    cases layers.symm.trans layers'
    rfl
  · rintro rfl
    exact ⟨layer, _, read, layers, rfl⟩

/-- What is loaded where a file is found. -/
theorem load_of_found (found : file? d here o = .ok f)
    (spoken : (Layer.ofEnvironment environment).Holds env)
    (read : ∃ layer, fileLayer d here f = .ok layer ∧ layer.Holds file) :
    load d here o environment = .ok s ↔
      (layered here o env file).Usable d ∧ s = layered here o env file := by
  rw [load_eq_ok_iff]
  constructor
  · rintro ⟨_, found', made, usable⟩
    cases found.symm.trans found'
    obtain rfl := (madeOf_iff spoken read).mp made
    exact ⟨usable, rfl⟩
  · rintro ⟨usable, rfl⟩
    exact ⟨f, found, (madeOf_iff spoken read).mpr rfl, usable⟩

end Load

/-- **Loading the settings.**  Where the environment and the file set what they set to values of the
right type, the settings are loaded exactly if a file that the command line names is there and what
the sources make is usable; and then each setting is that of the first source that sets it, the
root made absolute and clean. -/
theorem load_layered {d : Disk} {here : Path} {o : ServeOptions}
    {environment : List (String × String)} {env file : Choice} (rooted : here.isAbsolute = true)
    (spoken : (Layer.ofEnvironment environment).Holds env)
    (content : ∀ f, file? d here o = .ok f →
      ∃ layer, fileLayer d here f = .ok layer ∧ layer.Holds file) :
    (∀ s, load d here o environment = .ok s ↔
      (∀ f, o.config = some f → d.isFile (here.join f) = true) ∧
      (layered here o env file).Usable d ∧ s = layered here o env file) ∧
    (layered here o env file).root.isAbsolute = true ∧
    Path.Component.Normalizes
      (here.join (([o.root, env.root, file.root].findSome? id).getD ⟨"."⟩)).components
      (layered here o env file).root.components := by
  obtain ⟨absolute, normal⟩ :=
    absolute_normalizes rooted (chosen [.ofOptions o, env, file]).root
  refine ⟨fun s => ?_, absolute, normal⟩
  rcases file?_cases d here o with ⟨missing, named, absent, found⟩ | ⟨there, f, found⟩
  · rw [load_of_lost found]
    refine ⟨fun h => (by cases h), fun ⟨there, _⟩ => ?_⟩
    rw [there missing named] at absent
    cases absent
  · rw [load_of_found found spoken (content f found)]
    exact ⟨fun made => ⟨there, made⟩, fun made => made.2⟩

end Settings

namespace Sample

/-- A project with a file that sets its port and its extensions, and a host that is not taken. -/
def projectDisk : Disk :=
  (({} : Disk).makeDirectory ⟨"/web/app"⟩).write ⟨"/web/fob-hmr.config.json"⟩
    "\x7b\"port\": 9000, \"extensions\": [\".ts\"], \"host\": \"a\"\x7d".toUTF8

/-- Where the project lies, and how long to wait. -/
def flags : ServeOptions := { root := some ⟨"web/app/.."⟩, debounceMs := some 7 }

/-- The file that takes part. -/
def projectFile : Path := (⟨"web/app/.."⟩ : Path).join ⟨Settings.fileName⟩

/-- What is set besides. -/
def environment : List (String × String) := [("FOB_HMR_HOST", "b"), ("FOB_HMR_DEBOUNCE_MS", "9")]

/-- Each setting is that of the first source that sets it. -/
theorem flags_layered :
    ∃ s, Settings.load projectDisk ⟨"/"⟩ flags environment = .ok s ∧
      (s.root.text, s.host, s.port, s.debounceMs, s.extensions) =
        ("/web", "b", 9000, 7, [".ts"]) := by
  let env : Choice := { host := some "b", debounceMs := some 9 }
  let file : Choice := { host := some "a", port := some 9000, extensions := some [".ts"] }
  let s := Settings.layered ⟨"/"⟩ flags env file
  have content (f : Option Path) (found : Settings.file? projectDisk ⟨"/"⟩ flags = .ok f) :
      ∃ layer, Settings.fileLayer projectDisk ⟨"/"⟩ f = .ok layer ∧ layer.Holds file := by
    have facts : projectDisk.isFile ((⟨"/"⟩ : Path).join projectFile) = true ∧
        ((Settings.fileLayer projectDisk ⟨"/"⟩ (some projectFile)).toOption.any
          fun layer => layer.Holds file) = true := by decide +kernel
    obtain ⟨there, holds⟩ := facts
    have named : Settings.file? projectDisk ⟨"/"⟩ flags = .ok (some projectFile) := by
      show Except.ok (if projectDisk.isFile ((⟨"/"⟩ : Path).join projectFile) then _ else _) = _
      rw [if_pos there]
      rfl
    cases named.symm.trans found
    exact Settings.exists_holds holds
  have facts : (s.root.text, s.host, s.port, s.debounceMs, s.extensions) =
        ("/web", "b", 9000, 7, [".ts"]) ∧
      s.Usable projectDisk ∧ (⟨"/"⟩ : Path).isAbsolute = true ∧
      (Layer.ofEnvironment environment).Holds env := by
    decide +kernel
  obtain ⟨same, usable, rooted, spoken⟩ := facts
  obtain ⟨loads, -⟩ := Settings.load_layered rooted spoken content
  exact ⟨s, (loads s).mpr ⟨nofun, usable, rfl⟩, same⟩

end Sample

end HotReload
