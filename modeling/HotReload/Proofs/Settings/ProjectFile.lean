import HotReload.Proofs.Disk
import HotReload.Proofs.Settings.Layering

/-!
# The file in the project root

Where the command line names no file, the settings in `fob-hmr.config.json` of the project root are
to take part, and those of no other file.  The file is chosen before the root is known, by what the
command line says of the root alone.  So it is the root's own where the command line gives the root,
or nobody does; where the environment alone gives it, the file of the directory that the program
runs in takes its place.  And no file takes part where the root is spelled through a directory that
is not there, though its clean spelling leads somewhere.

* `Settings.file?_of_unnamed`: the file that is chosen; `Settings.root_of_madeOf`: whose root it is.
* `Settings.load_chosenFile`: the file that takes part, whenever settings are loaded.
* `Sample.environment_root`: a root that the environment gives, whose file does not take part.
-/

namespace HotReload

namespace Settings

variable {d : Disk} {here : Path} {o : ServeOptions} {environment : List (String × String)}
  {s : Settings}

/-- The settings file in a directory, where there is one. -/
def fileIn (d : Disk) (root : Path) : Option Path :=
  if d.isFile (root.join ⟨fileName⟩) then some (root.join ⟨fileName⟩) else none

/-- No settings file on the disk sets the root. -/
def Rootless (d : Disk) : Prop :=
  ∀ p content layer, d.read (Path.join p ⟨fileName⟩) = .ok content →
    Layer.ofFile? content = some layer → Assoc.get? layer "root" = none

/-- What an entry of a disk says as a settings file. -/
def layerOf? : DiskEntry → Option Layer
  | .directory => none
  | .file content => Layer.ofFile? content

/-- That no settings file sets the root can be computed. -/
theorem rootless_of_all (silent : (d.entries.all fun e =>
    (layerOf? e.2).all fun layer => (Assoc.get? layer "root").isNone) = true) : Rootless d := by
  intro p content layer read whole
  obtain ⟨place, mem⟩ := Disk.mem_of_read read
  have unset := List.all_eq_true.mp silent _ mem
  rw [layerOf?, whole] at unset
  exact Option.isNone_iff_eq_none.mp unset

theorem fileName_isOne : Path.IsOne ⟨fileName⟩ fileName := by
  have facts : (⟨fileName⟩ : Path).isAbsolute = false ∧
      (⟨fileName⟩ : Path).body = [.normal fileName] ∧
      Disk.wantsDirectory ⟨fileName⟩ = false := by decide +kernel
  exact ⟨facts.1, facts.2.1, facts.2.2⟩

/-- What the command line says of the root: it, or the directory that the program runs in. -/
def base (o : ServeOptions) : Path := o.root.getD ⟨"."⟩

/-! ### Which file takes part -/

/-- **The file that is chosen** is that of the directory that the command line names. -/
theorem file?_of_unnamed (d : Disk) (here : Path) (unnamed : o.config = none) :
    file? d here o = .ok (if d.isFile ((here.join (base o)).join ⟨fileName⟩)
      then some ((base o).join ⟨fileName⟩) else none) := by
  rw [file?, unnamed, ← Path.join_assoc here (base o) fileName_isOne.relative]
  rfl

/-- A file layer depends on what is read. -/
theorem fileLayer_congr {p q : Path} (same : d.stat (here.join p) = d.stat (here.join q)) :
    fileLayer d here (some p) = fileLayer d here (some q) := by
  simp only [fileLayer, Disk.read, same]

section Spelling

variable {p : Path} (rooted : here.isAbsolute = true) (there : d.isDirectory (here.join p) = true)

include rooted there

theorem stat_absolute : d.stat ((absolute here p).join ⟨fileName⟩) =
    d.stat ((here.join p).join ⟨fileName⟩) :=
  Disk.stat_clean_under (Path.isAbsolute_join rooted p) fileName_isOne there

theorem isFile_absolute : d.isFile ((absolute here p).join ⟨fileName⟩) =
    d.isFile ((here.join p).join ⟨fileName⟩) := by
  rw [Disk.isFile, Disk.isFile, stat_absolute rooted there]

/-- The settings file of a directory says the same under any spelling of the directory. -/
theorem fileLayer_absolute : fileLayer d here (some ((absolute here p).join ⟨fileName⟩)) =
    fileLayer d here (some (p.join ⟨fileName⟩)) := by
  have root := (absolute_normalizes rooted p).1
  apply fileLayer_congr
  rw [Path.join_assoc here p fileName_isOne.relative, ← stat_absolute rooted there,
    Path.join_of_absolute here (Path.isAbsolute_join root _)]

end Spelling

/-- **The file that takes part** is that of the directory that the command line names, under its
clean spelling; and none does where this directory is not there. -/
theorem madeOf_base (rooted : here.isAbsolute = true) (unnamed : o.config = none)
    (loaded : load d here o environment = .ok s) :
    MadeOf d here o environment
      (if d.isDirectory (here.join (base o)) then fileIn d (absolute here (base o)) else none)
      s := by
  obtain ⟨f, found, made, -⟩ := load_eq_ok_iff.mp loaded
  rw [file?_of_unnamed d here unnamed] at found
  cases found
  cases there : d.isDirectory (here.join (base o)) with
  | false =>
    have absent : ¬ d.isFile ((here.join (base o)).join ⟨fileName⟩) = true := by
      intro isFile
      rw [Disk.isDirectory_of_isFile (Path.isAbsolute_join rooted _) fileName_isOne isFile] at there
      cases there
    rw [if_neg absent] at made
    rw [if_neg Bool.false_ne_true]
    exact made
  | true =>
    rw [if_pos rfl, fileIn, isFile_absolute rooted there]
    cases present : d.isFile ((here.join (base o)).join ⟨fileName⟩) with
    | false =>
      rw [present, if_neg Bool.false_ne_true] at made
      rw [if_neg Bool.false_ne_true]
      exact made
    | true =>
      rw [present, if_pos rfl] at made
      rw [if_pos rfl]
      obtain ⟨layer, whole, read, layers⟩ := made
      exact ⟨layer, whole, (fileLayer_absolute rooted there).trans read, layers⟩

/-! ### Which root it is -/

/-- The root is what is said of it. -/
theorem root_of_ofLayers? {layers : List Layer} (h : ofLayers? layers = some s) :
    said layers "root" LooseValue.text? "." = some s.root.text := by
  unfold ofLayers? at h
  split at h
  · simp only [Option.bind_eq_bind, Option.bind_eq_some_iff, Option.some.injEq] at h
    obtain ⟨root, said, -, -, -, -, -, -, -, -, -, -, rfl⟩ := h
    exact said
  · cases h

/-- **Whose root it is**: the one that the command line names, or the directory that the program
runs in, where no variable and no file sets it. -/
theorem root_of_madeOf {file : Option Path} (made : MadeOf d here o environment file s)
    (unset : ∀ layer, fileLayer d here file = .ok layer → Assoc.get? layer "root" = none)
    (plain : o.root.isSome = true ∨
      Assoc.get? (Layer.ofEnvironment environment) "root" = none) :
    s.root = absolute here (base o) := by
  obtain ⟨layer, made, read, layers, rfl⟩ := made
  have same := root_of_ofLayers? layers
  have flag := (Layer.holds_ofOptions o).root
  rw [Layer.Gives, Option.map_map] at flag
  have text : made.root.text = (base o).text := by
    rw [said, Layer.value?, List.findSome?_cons] at same
    cases named : o.root with
    | some root =>
      rw [Choice.ofOptions, named, Option.map_some] at flag
      obtain ⟨value, there, reads⟩ := Option.map_eq_some_iff.mp flag
      rw [there] at same
      rw [base, named]
      exact (Option.some.inj (reads.symm.trans same)).symm
    | none =>
      rw [Choice.ofOptions, named, Option.map_none, Option.map_eq_none_iff] at flag
      have quiet : Assoc.get? (Layer.ofEnvironment environment) "root" = none := by
        simpa [named] using plain
      rw [flag, List.findSome?_cons, quiet, List.findSome?_cons, unset layer read] at same
      rw [base, named]
      exact (Option.some.inj same).symm
  show absolute here made.root = absolute here (base o)
  rw [show made.root = base o from congrArg Path.mk text]

/-! ### Loading -/

/-- What the settings file of a directory says of the root. -/
theorem Rootless.unset (rootless : Rootless d) {root : Path} {layer : Layer}
    (rooted : root.isAbsolute = true) (read : fileLayer d here (fileIn d root) = .ok layer) :
    Assoc.get? layer "root" = none := by
  rw [fileIn] at read
  split at read
  · rw [fileLayer, Path.join_of_absolute here (Path.isAbsolute_join rooted _)] at read
    split at read
    · next whole =>
      cases read
      cases there : d.read (root.join ⟨fileName⟩) with
      | error fault =>
        rw [there] at whole
        cases whole
      | ok content =>
        rw [there] at whole
        exact rootless root content layer there whole
    · cases read
  · cases read
    rfl

/-- The directory that the program runs in, under its own name. -/
theorem join_current {here : Path} (rooted : here.isAbsolute = true) :
    (here.join ⟨"."⟩).components = here.components := by
  have dot : (⟨"."⟩ : Path).isAbsolute = false ∧ (⟨"."⟩ : Path).body = [] := by decide +kernel
  obtain ⟨absolute, body⟩ := Path.body_join rooted dot.1
  rw [Path.components_of_absolute absolute, body, dot.2, List.append_nil,
    Path.components_of_absolute rooted]

/-- Which file takes part in what is loaded. -/
structure ChosenFile (d : Disk) (here : Path) (o : ServeOptions)
    (environment : List (String × String)) (s : Settings) : Prop where
  /-- Where the command line names the root, or no variable does, the root's own. -/
  own : (o.root.isSome = true ∨ Assoc.get? (Layer.ofEnvironment environment) "root" = none) →
    d.isDirectory (here.join (base o)) = true → MadeOf d here o environment (fileIn d s.root) s
  /-- Where the command line does not name the root, that of the directory that the program runs
  in, whatever the root is. -/
  other : o.root = none → d.isDirectory here = true →
    MadeOf d here o environment (fileIn d here.clean) s
  /-- Where the root is spelled by a path that leads nowhere, none. -/
  lost : d.isDirectory (here.join (base o)) = false → MadeOf d here o environment none s

/-- **The file of the project root** takes part in what is loaded, and no other, where the command
line does not name a file, but names the root or leaves it to be the directory that the program runs
in, and no file sets it. -/
theorem load_chosenFile (rooted : here.isAbsolute = true) (unnamed : o.config = none)
    (rootless : Rootless d) (loaded : load d here o environment = .ok s) :
    ChosenFile d here o environment s := by
  have made := madeOf_base rooted unnamed loaded
  refine ⟨fun plain there => ?_, fun unset there => ?_, fun lost => ?_⟩
  · rw [there, if_pos rfl] at made
    have root := root_of_madeOf made
      (fun _ read => rootless.unset (absolute_normalizes rooted (base o)).1 read) plain
    rw [root]
    exact made
  · have current : base o = ⟨"."⟩ := by rw [base, unset]; rfl
    have same := join_current rooted
    have there' : d.isDirectory (here.join ⟨"."⟩) = true := by
      rw [Disk.isDirectory_iff (Path.isAbsolute_join rooted _), same]
      exact (Disk.isDirectory_iff rooted).mp there
    have clean : absolute here ⟨"."⟩ = here.clean := by
      rw [absolute, Path.clean, Path.clean, Path.cleanComponents, Path.cleanComponents, same]
    rw [current, there', if_pos rfl, clean] at made
    exact made
  · rw [lost] at made
    exact made

end Settings

namespace Sample

/-- A project with a settings file, and a directory that the program runs in. -/
def siteDisk : Disk :=
  (({} : Disk).makeDirectory ⟨"/work/web"⟩).write ⟨"/work/web/fob-hmr.config.json"⟩
    "\x7b\"port\": 9000\x7d".toUTF8

/-- What its file sets. -/
def siteChoice : Choice := { port := some 9000 }

/-- The command line names the root. -/
def siteOptions : ServeOptions := { root := some ⟨"web"⟩ }

/-- A variable names it. -/
def siteVariables : List (String × String) := [("FOB_HMR_ROOT", "/work/web")]

open Settings

theorem siteDisk_rootless : Rootless siteDisk := rootless_of_all (by decide +kernel)

/-- The command line names the root, and its file takes part. -/
theorem site_chosenFile :
    ∃ s, load siteDisk ⟨"/work"⟩ siteOptions [] = .ok s ∧ s.port = 9000 ∧
      MadeOf siteDisk ⟨"/work"⟩ siteOptions [] (fileIn siteDisk s.root) s := by
  let s := layered ⟨"/work"⟩ siteOptions {} siteChoice
  have facts : s.port = 9000 ∧ (⟨"/work"⟩ : Path).isAbsolute = true ∧
      siteDisk.isDirectory ((⟨"/work"⟩ : Path).join (base siteOptions)) = true ∧
      (Layer.ofEnvironment []).Holds {} ∧
      siteDisk.isFile (((⟨"/work"⟩ : Path).join (base siteOptions)).join ⟨fileName⟩) = true ∧
      ((fileLayer siteDisk ⟨"/work"⟩ (some ((base siteOptions).join ⟨fileName⟩))).toOption.any
        fun layer => layer.Holds siteChoice) = true ∧
      s.Usable siteDisk := by
    decide +kernel
  obtain ⟨port, rooted, there, spoken, present, holds, usable⟩ := facts
  have found := file?_of_unnamed (o := siteOptions) siteDisk ⟨"/work"⟩ rfl
  rw [present, if_pos rfl] at found
  have loaded := (load_of_found found spoken (exists_holds holds)).mpr ⟨usable, rfl⟩
  have chosen := load_chosenFile rooted rfl siteDisk_rootless loaded
  exact ⟨s, loaded, port, chosen.own (.inl rfl) there⟩

/-- **A root that the environment gives**: its file is there, and does not take part. -/
theorem environment_root :
    ∃ s, load siteDisk ⟨"/work"⟩ {} siteVariables = .ok s ∧
      s.root.text = "/work/web" ∧ s.port = 8081 ∧ Rootless siteDisk ∧
      siteDisk.isFile (s.root.join ⟨fileName⟩) = true ∧
      ¬ MadeOf siteDisk ⟨"/work"⟩ {} siteVariables (fileIn siteDisk s.root) s := by
  let given : Choice := { root := some ⟨"/work/web"⟩ }
  let s := layered ⟨"/work"⟩ {} given {}
  have facts : s.root.text = "/work/web" ∧ s.port = 8081 ∧
      (Layer.ofEnvironment siteVariables).Holds given ∧
      siteDisk.isFile (((⟨"/work"⟩ : Path).join (base {})).join ⟨fileName⟩) = false ∧
      ((fileLayer siteDisk ⟨"/work"⟩ none).toOption.any fun layer => layer.Holds {}) = true ∧
      siteDisk.isFile (s.root.join ⟨fileName⟩) = true ∧
      ((fileLayer siteDisk ⟨"/work"⟩ (fileIn siteDisk s.root)).toOption.any
        fun layer => layer.Holds siteChoice) = true ∧
      s.Usable siteDisk := by
    decide +kernel
  obtain ⟨text, port, spoken, absent, silent, present, holds, usable⟩ := facts
  have found := file?_of_unnamed (o := {}) siteDisk ⟨"/work"⟩ rfl
  rw [absent] at found
  refine ⟨s, (load_of_found found spoken (exists_holds silent)).mpr ⟨usable, rfl⟩, text, port,
    siteDisk_rootless, present, fun made => ?_⟩
  -- with the file of the root, the port would be the one that this file sets
  have other := congrArg Settings.port ((madeOf_iff spoken (exists_holds holds)).mp made)
  rw [port] at other
  cases other

end Sample

end HotReload
