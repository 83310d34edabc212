import HotReload.Proofs.Project.Numbers

/-!
# Numbers in place of what is required

In a source file that is built, each literal of a `require` that stands for a file is replaced by
a number.  The number is looked up among the modules of a program, or else in the table of the
project.  Where the modules of the program have the numbers of the table, it makes no difference:
the number is always the table's, and so it is the one with which the file itself is defined.

* `Project.numberIn_eq`: the program's number and the project's own never disagree.
* `Project.targets`: the literals that stand for files.
* `Project.Linked`: what is said of a built module by a table of numbers.
* `Project.linked_of_bodyOf`: a module is built so.
* `Project.build_cons`: a bundle is built module by module.
-/

namespace HotReload.Project

variable {p p' : Project} {job : BuildJob} {m : Module}

/-! ### The number of what is required -/

/-- A number that a program has for a file is the project's own. -/
theorem number?_of_idFor? {resolution : Resolution} (known : ∀ m ∈ resolution.modules, p.Knows m)
    {file : Path} {id : ModuleId} (found : resolution.idFor? file = some id) :
    p.number? file = some id := by
  rw [Resolution.idFor?, Option.map_eq_some_iff] at found
  obtain ⟨m, first, rfl⟩ := found
  have here : (m.path == file) = true :=
    List.find?_some (p := fun m : Module => m.path == file) first
  rw [← number?_congr here]
  exact known m (List.mem_of_find?_eq_some first)

/-- The number that is put in for a file: the program's, or else the project's own. -/
def numberIn (resolution : Resolution) (number : Path → Option ModuleId) (file : Path) :
    Option ModuleId :=
  (resolution.idFor? file).or (number file)

/-- **Two places, one number:** where the modules of the program have the numbers of the project, it
makes no difference where the number of a file is looked up. -/
theorem numberIn_eq {resolution : Resolution} (known : ∀ m ∈ resolution.modules, p.Knows m)
    {file : Path} {id : ModuleId} (given : numberIn resolution p.number? file = some id) :
    p.number? file = some id := by
  unfold numberIn at given
  cases found : resolution.idFor? file with
  | some id' =>
    rw [found] at given
    cases given
    exact number?_of_idFor? known found
  | none => rwa [found] at given

/-- The number that a file is given is the one that is put in for it, then and later. -/
theorem numberIn_numberFor {resolution : Resolution} {file : Path} {p p' : Project}
    (grows : (numberFor resolution file p).2.Grows p') :
    numberIn resolution p'.number? file = some (numberFor resolution file p).1 := by
  unfold numberIn
  unfold numberFor at grows ⊢
  cases found : resolution.idFor? file with
  | some id => rfl
  | none =>
    simp only [found] at grows
    exact grows.number? (number?_idOf p file)

/-! ### Literals that stand for files -/

/-- The literals that stand for files, each with its file; those that stand for what is built into
the platform are passed over. -/
def targets (source : Path) (p : Project) : Script.Imports → List (Script.ImportRecord × Path)
  | [] => []
  | record :: rest =>
    match p.resolve record.specifier source with
    | (.ok (some file), p) => (record, file) :: targets source p rest
    | (_, p) => targets source p rest

/-- A patch that puts the number of a file in place of the literal that stands for it. -/
def Numbers (number : Path → Option ModuleId) (target : Script.ImportRecord × Path)
    (patch : Script.Patch) : Prop :=
  ∃ id, number target.2 = some id ∧ patch = ⟨target.1.start, target.1.stop, toString id⟩

/-- Files are located without numbers. -/
theorem resolve_withIds (p : Project) (ids : List (Path × ModuleId)) (specifier : String)
    (source : Path) :
    ({ p with ids } : Project).resolve specifier source =
      ((p.resolve specifier source).1, { (p.resolve specifier source).2 with ids }) := by
  simp only [resolve]
  split
  split <;> rfl

theorem targets_withIds (source : Path) (p : Project) (ids : List (Path × ModuleId))
    (records : Script.Imports) :
    targets source { p with ids } records = targets source p records := by
  induction records generalizing p with
  | nil => rfl
  | cons record rest ih =>
    rw [targets, targets, resolve_withIds]
    rcases p.resolve record.specifier source with ⟨_ | _ | file, p₁⟩
    · exact ih p₁
    · exact ih p₁
    · exact congrArg ((record, file) :: ·) (ih p₁)

theorem targets_idOf (source : Path) (p : Project) (q : Path) (records : Script.Imports) :
    targets source (p.idOf q).2 records = targets source p records := by
  cases known : p.number? q with
  | some id => rw [idOf_of_number? known]
  | none =>
    rw [idOf_of_new known]
    exact targets_withIds source p _ records

theorem targets_numberFor (source : Path) (resolution : Resolution) (p : Project) (q : Path)
    (records : Script.Imports) :
    targets source (numberFor resolution q p).2 records = targets source p records := by
  unfold numberFor
  split
  · rfl
  · exact targets_idOf source p q records

/-- **The patches put in numbers** for the literals that stand for files, and for no others. -/
theorem numbers_in_of_requirePatches {source : Path} {resolution : Resolution}
    {records : Script.Imports} {patches : List Script.Patch}
    (made : requirePatches source resolution p records = (.ok patches, p')) :
    List.Forall₂ (Numbers (numberIn resolution p'.number?)) (targets source p records)
      patches := by
  induction records generalizing p patches with
  | nil =>
    cases made
    exact .nil
  | cons record rest ih =>
    rw [requirePatches_cons] at made
    rw [targets]
    generalize p.resolve record.specifier source = found at made
    obtain ⟨fault | _ | file, p₁⟩ := found
    · cases made
    · exact ih made
    · have same := targets_numberFor source resolution p₁ file rest
      have put : (numberFor resolution file p₁).2.Grows p' →
          numberIn resolution p'.number? file = some (numberFor resolution file p₁).1 :=
        numberIn_numberFor
      simp only at made
      generalize numberFor resolution file p₁ = numbered at made same put
      obtain ⟨id, p₂⟩ := numbered
      have more := grows_requirePatches source resolution p₂ rest
      cases others : requirePatches source resolution p₂ rest with
      | mk answer p₃ =>
        rw [others] at made more
        cases answer with
        | error fault => cases made
        | ok patches =>
          cases made
          have rest := ih others
          rw [same] at rest
          exact .cons ⟨id, put more, rfl⟩ rest

/-- **The patches put in the numbers of the table,** where the modules of the program have these
numbers. -/
theorem numbers_of_requirePatches {source : Path} {resolution : Resolution}
    {records : Script.Imports} {patches : List Script.Patch}
    (known : ∀ m ∈ resolution.modules, p.Knows m)
    (made : requirePatches source resolution p records = (.ok patches, p')) :
    List.Forall₂ (Numbers p'.number?) (targets source p records) patches := by
  have grows := grows_requirePatches source resolution p records
  rw [made] at grows
  exact (numbers_in_of_requirePatches made).imp fun target patch ⟨id, given, put⟩ =>
    ⟨id, numberIn_eq (fun m mem => grows.knows (known m mem)) given, put⟩

/-! ### Built modules -/

/-- A body is the source text of a file, as it stands, with numbers in place of what is required. -/
def Rewrites (p : Project) (number : Path → Option ModuleId) (path : Path) (body : String) : Prop :=
  ∃ text imports patches, p.readText path = .ok text ∧ scan path text = .ok imports ∧
    List.Forall₂ (Numbers number) (targets path p imports.requires) patches ∧
    body = Script.splice text patches

/-- A built module is linked by a table of numbers: it has the number of its path, its text is a body
in a definition under that number, and what it requires has the numbers of the table.  `p` is the
project from which it was built. -/
structure Linked (number : Path → Option ModuleId) (p : Project) (m : Module)
    (entry : BuiltModule) : Prop where
  here : number m.path = some m.id
  id : entry.id = m.id
  code : ∃ body, entry.code = "__d(function(global, require, module, exports) \x7b\n" ++ body ++
      "\n\x7d, " ++ toString m.id ++ ");" ∧
    (m.kind = .source → p.Rewrites number m.path body)

/-- A table that says more links what was linked before. -/
theorem Linked.mono {number number' : Path → Option ModuleId} {entry : BuiltModule}
    (h : Linked number p m entry)
    (more : ∀ {q : Path} {id : ModuleId}, number q = some id → number' q = some id) :
    Linked number' p m entry := by
  obtain ⟨body, code, rewrites⟩ := h.code
  refine ⟨more h.here, h.id, body, code, fun source => ?_⟩
  obtain ⟨text, imports, patches, read, scanned, numbers, rfl⟩ := rewrites source
  refine ⟨text, imports, patches, read, scanned, ?_, rfl⟩
  exact numbers.imp fun target patch ⟨id, known, put⟩ => ⟨id, more known, put⟩

/-- A body as a built module. -/
def entryOf (p : Project) (job : BuildJob) (m : Module) (body : String) : BuiltModule :=
  ⟨m.id, define body m.id, p.urlOf job m.path false, p.urlOf job m.path true⟩

/-- **A module is built linked**, where the modules of the program have the numbers of the table. -/
theorem linked_of_bodyOf {body : String} (here : p.Knows m)
    (known : ∀ m ∈ job.resolution.modules, p.Knows m) (made : bodyOf job m p = (.ok body, p')) :
    Linked p'.number? p m (p.entryOf job m body) := by
  have grows := grows_bodyOf job m p
  rw [made] at grows
  refine ⟨grows.number? here, rfl, body, rfl, fun source => ?_⟩
  unfold bodyOf at made
  simp only [source] at made
  split at made
  · cases made
  · next text read =>
    split at made
    · cases made
    · next imports scanned =>
      simp only [numberRequires] at made
      cases patched : requirePatches m.path job.resolution p imports.requires with
      | mk answer p₁ =>
        rw [patched] at made
        cases answer with
        | error fault => cases made
        | ok patches =>
          cases made
          have numbers := numbers_of_requirePatches known patched
          exact ⟨text, imports, patches, read, scanned, numbers, rfl⟩

/-- Where files are found does not change what they are called. -/
theorem entryOf_of_grows (grows : p.Grows p') (body : String) :
    p'.entryOf job m body = p.entryOf job m body := by
  simp only [entryOf, urlOf, grows.root]

theorem grows_build (job : BuildJob) (p : Project) (modules : List Module) :
    p.Grows (build job p modules).2 := by
  induction modules generalizing p with
  | nil => exact .refl p
  | cons m rest ih =>
    have grows := grows_bodyOf job m p
    rw [build]
    generalize bodyOf job m p = made at grows
    obtain ⟨fault | body, p₁⟩ := made
    · exact grows
    · have more := grows.trans (ih p₁)
      simp only
      generalize build job p₁ rest = others at more
      obtain ⟨fault | built, p₂⟩ := others
      · exact more
      · exact more

/-- **A bundle is built module by module.** -/
theorem build_cons (job : BuildJob) (p : Project) (m : Module) (rest : List Module) :
    build job p (m :: rest) =
      match bodyOf job m p with
      | (.error fault, p₁) => (.error fault, p₁)
      | (.ok body, p₁) =>
        ((build job p₁ rest).1.map (p.entryOf job m body :: ·), (build job p₁ rest).2) := by
  have grows := grows_bodyOf job m p
  rw [build]
  generalize bodyOf job m p = made at grows
  obtain ⟨fault | body, p₁⟩ := made
  · rfl
  · have more := grows.trans (grows_build job p₁ rest)
    simp only
    generalize build job p₁ rest = others at more
    obtain ⟨fault | built, p₂⟩ := others
    · rfl
    · rw [← entryOf_of_grows more]
      rfl

end HotReload.Project
