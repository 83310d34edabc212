import HotReload.Project.Basic
import HotReload.Proofs.Disk
import HotReload.Proofs.Path.Below

/-!
# Hunts depend on what they see

A hunt remembers what it has seen and does not look at it again.  So what it sees is what is
remembered and, where nothing is, the disk.  Two hunts that see the same find the same, and no hunt
changes what is seen: it only moves it from the disk to the memory.  Specifiers that are resolved
one after the other are therefore resolved by one and the same function, whichever were resolved
before.

* `Memory.sight`: what is seen of a disk.
* `Steady`: a hunt that depends on what is seen and leaves it as it is; one lemma for each hunt.
* `SeesAs`: a project that sees what another one sees.
* `Project.found`: what a project makes of specifiers; `SeesAs.found_eq`, `seesAs_resolve`.
* `Disk.Rewritten`: one file has another content; `SeesAs.of_rewritten`.
-/

namespace HotReload.Project

variable {α β γ : Type}

/-! ### What is seen -/

/-- What can be seen: the entries at paths and the manifests of directories. -/
@[ext]
structure Sight where
  entry : Path → Option Bool
  manifest : Path → Except LocateFault (Option Manifest)

/-- The manifest of a directory on a disk. -/
def manifestOn (disk : Disk) (directory : Path) : Except LocateFault (Option Manifest) :=
  match disk.read (directory.join ⟨Manifest.fileName⟩) with
  | .error _ => .ok none
  | .ok content =>
    match (String.fromUTF8? content).bind fun text => Manifest.parse? (Hunt.unmarked text) with
    | some manifest => .ok (some manifest)
    | none => .error (.badManifest (directory.join ⟨Manifest.fileName⟩))

/-- What is seen of a disk: what is remembered, and else what is there. -/
def Memory.sight (memory : Memory) (disk : Disk) : Sight where
  entry p :=
    match memory.entries.lookup p.text with
    | some seen => seen
    | none => (disk.stat p).toOption.map DiskEntry.isDirectory
  manifest directory :=
    match memory.manifests.lookup directory.text with
    | some seen => .ok seen
    | none => manifestOn disk directory

theorem Memory.sight_entry (m : Memory) (d : Disk) (p : Path) :
    (m.sight d).entry p =
      match m.entries.lookup p.text with
      | some seen => seen
      | none => (d.stat p).toOption.map DiskEntry.isDirectory := rfl

theorem Memory.sight_manifest (m : Memory) (d : Disk) (p : Path) :
    (m.sight d).manifest p =
      match m.manifests.lookup p.text with
      | some seen => .ok seen
      | none => manifestOn d p := rfl

/-! ### Hunts step by step -/

namespace Hunt

/-- What a hunt on a disk finds, and what is remembered after it. -/
def on (hunt : Hunt α) (d : Disk) (m : Memory) : Except LocateFault α × Memory :=
  (hunt.run.run d).run m

theorem on_bind (h : Hunt α) (f : α → Hunt β) (d : Disk) (m : Memory) :
    (h >>= f).on d m =
      match h.on d m with
      | (.ok a, m) => (f a).on d m
      | (.error fault, m) => (.error fault, m) := by
  change ExceptT.bindCont f (h.on d m).1 d (h.on d m).2 = _
  rcases h.on d m with ⟨_ | _, _⟩ <;> rfl

theorem on_tryCatch (h : Hunt α) (f : LocateFault → Hunt α) (d : Disk) (m : Memory) :
    (tryCatch h f).on d m =
      match h.on d m with
      | (.ok a, m) => (.ok a, m)
      | (.error fault, m) => (f fault).on d m := by
  have first : StateT.run (ReaderT.run h d) m = h.on d m := rfl
  change on (ExceptT.tryCatch h f) d m = _
  rw [on]
  simp only [ExceptT.tryCatch, ExceptT.run_mk, ReaderT.run_bind, StateT.run_bind, first]
  rcases h.on d m with ⟨_ | _, _⟩ <;> rfl

/-- **To look is to see:** what is seen is remembered. -/
theorem on_look (p : Path) (d : Disk) (m : Memory) :
    (look p).on d m = (.ok ((m.sight d).entry p),
      match m.entries.lookup p.text with
      | some _ => m
      | none => { m with entries := (p.text, (m.sight d).entry p) :: m.entries }) := by
  unfold look
  rw [on_bind, Memory.sight_entry]
  change (match m.entries.lookup p.text with
    | some seen => (pure seen : Hunt _)
    | none => _ : Hunt _).on d m = _
  cases m.entries.lookup p.text <;> rfl

/-- A manifest that is seen is remembered; a fault is not. -/
theorem on_manifest? (p : Path) (d : Disk) (m : Memory) :
    (manifest? p).on d m = ((m.sight d).manifest p,
      match m.manifests.lookup p.text, (m.sight d).manifest p with
      | none, .ok seen => { m with manifests := (p.text, seen) :: m.manifests }
      | _, _ => m) := by
  unfold manifest?
  rw [on_bind, Memory.sight_manifest]
  change (match m.manifests.lookup p.text with
    | some seen => (pure seen : Hunt _)
    | none => _ : Hunt _).on d m = _
  cases m.manifests.lookup p.text with
  | some seen => rfl
  | none =>
    unfold manifestOn
    dsimp only
    rw [on_bind]
    change (match d.read (p.join ⟨Manifest.fileName⟩) with
      | .error _ => _
      | .ok content => _ : Hunt _).on d m = _
    cases d.read (p.join ⟨Manifest.fileName⟩) with
    | error fault => rfl
    | ok content =>
      dsimp only
      cases (String.fromUTF8? content).bind fun text => Manifest.parse? (unmarked text) <;> rfl

end Hunt

/-! ### Steady hunts -/

/-- A hunt that depends on what it sees, and leaves what is seen as it is. -/
structure Steady (hunt : Hunt α) : Prop where
  same : ∀ {d d' : Disk} {m m' : Memory}, m.sight d = m'.sight d' →
    (hunt.on d m).1 = (hunt.on d' m').1
  kept : ∀ (d : Disk) (m : Memory), (hunt.on d m).2.sight d = m.sight d

namespace Steady

theorem pure (a : α) : Steady (pure a : Hunt α) := ⟨fun _ => rfl, fun _ _ => rfl⟩

theorem throw (fault : LocateFault) : Steady (throw fault : Hunt α) :=
  ⟨fun _ => rfl, fun _ _ => rfl⟩

/-- Behind a fault nothing comes. -/
theorem stop (fault : LocateFault) (f : α → Hunt β) :
    Steady (MonadExcept.throw fault >>= f : Hunt β) :=
  ⟨fun _ => rfl, fun _ _ => rfl⟩

/-- A hunt that goes on with what another one brings, in what is seen then. -/
theorem after {h : Hunt α} {whole : Hunt β} {next : Except LocateFault α → Hunt β}
    (first : Steady h) (each : ∀ answer, Steady (next answer))
    (goes : ∀ d m, whole.on d m = (next (h.on d m).1).on d (h.on d m).2) : Steady whole where
  same {d d' m m'} alike := by
    rw [goes, goes, ← first.same alike]
    exact (each _).same (by rw [first.kept, first.kept, alike])
  kept d m := by
    rw [goes]
    exact ((each _).kept d _).trans (first.kept d m)

theorem bind {h : Hunt α} {f : α → Hunt β} (first : Steady h) (next : ∀ a, Steady (f a)) :
    Steady (h >>= f) := by
  let then_ : Except LocateFault α → Hunt β
    | .ok a => f a
    | .error fault => MonadExcept.throw fault
  have each : ∀ answer, Steady (then_ answer)
    | .ok a => next a
    | .error fault => .throw fault
  refine first.after each fun d m => ?_
  rw [Hunt.on_bind]
  rcases h.on d m with ⟨_ | _, _⟩ <;> rfl

theorem map {h : Hunt α} (f : α → β) (first : Steady h) : Steady (f <$> h) := by
  rw [map_eq_pure_bind]
  exact first.bind fun a => .pure (f a)

theorem tryCatch {h : Hunt α} {f : LocateFault → Hunt α} (first : Steady h)
    (other : ∀ fault, Steady (f fault)) : Steady (tryCatch h f) := by
  let then_ : Except LocateFault α → Hunt α
    | .ok a => Pure.pure a
    | .error fault => f fault
  have each : ∀ answer, Steady (then_ answer)
    | .ok a => .pure a
    | .error fault => other fault
  refine first.after each fun d m => ?_
  rw [Hunt.on_tryCatch]
  rcases h.on d m with ⟨_ | _, _⟩ <;> rfl

/-- A hunt goes on by whether something was found. -/
theorem option {h : Hunt (Option α)} {f : Option α → Hunt β} (first : Steady h)
    (found : ∀ a, Steady (f (some a))) (missed : Steady (f none)) : Steady (h >>= f) :=
  first.bind fun answer => by
    cases answer with
    | some a => exact found a
    | none => exact missed

/-- A hunt goes on by an answer. -/
theorem bool {h : Hunt Bool} {f : Bool → Hunt β} (first : Steady h)
    (yes : Steady (f true)) (no : Steady (f false)) : Steady (h >>= f) :=
  first.bind fun answer => by
    cases answer with
    | true => exact yes
    | false => exact no

/-- A hunt through a list, item after item. -/
theorem sweep {f : γ → PUnit → Hunt (ForInStep PUnit)} (each : ∀ x, Steady (f x ⟨⟩))
    (xs : List γ) : Steady (forIn xs ⟨⟩ f) := by
  induction xs with
  | nil => exact .pure PUnit.unit
  | cons x xs ih =>
    rw [List.forIn_cons]
    refine (each x).bind fun step => ?_
    cases step with
    | done _ => exact .pure PUnit.unit
    | yield _ => exact ih

/-! ### Looking -/

theorem look (p : Path) : Steady (Hunt.look p) where
  same alike := by rw [Hunt.on_look, Hunt.on_look, alike]
  kept d m := by
    rw [Hunt.on_look]
    cases met : m.entries.lookup p.text with
    | some _ => rfl
    | none =>
      refine Sight.ext (funext fun q => ?_) rfl
      rw [Memory.sight_entry]
      by_cases same : q.text = p.text
      · simp only [List.lookup_cons, same, beq_self_eq_true]
        obtain ⟨q⟩ := q
        cases same
        rfl
      · simp only [List.lookup_cons, beq_eq_false_iff_ne.mpr same]
        rfl

theorem manifest? (directory : Path) : Steady (Hunt.manifest? directory) where
  same alike := by rw [Hunt.on_manifest?, Hunt.on_manifest?, alike]
  kept d m := by
    rw [Hunt.on_manifest?]
    dsimp only
    split
    · next seen met found =>
      refine Sight.ext rfl (funext fun q => ?_)
      rw [Memory.sight_manifest]
      by_cases same : q.text = directory.text
      · simp only [List.lookup_cons, same, beq_self_eq_true]
        obtain ⟨q⟩ := q
        cases same
        exact found.symm
      · simp only [List.lookup_cons, beq_eq_false_iff_ne.mpr same]
        rfl
    · rfl

theorem isFile (p : Path) : Steady (Hunt.isFile p) := (look p).bind fun _ => .pure _

theorem isDirectory (p : Path) : Steady (Hunt.isDirectory p) := (look p).bind fun _ => .pure _

theorem firstManifest? (directories : List Path) : Steady (Hunt.firstManifest? directories) := by
  induction directories with
  | nil => exact .pure none
  | cons directory rest ih =>
    refine (manifest? directory).bind fun found => ?_
    cases found with
    | none => exact ih
    | some manifest => exact .pure _

theorem toDirectory (directories : List Path) : Steady (Hunt.toDirectory directories) := by
  induction directories with
  | nil => exact .pure []
  | cons p rest ih =>
    cases rest with
    | nil => exact .pure [p]
    | cons q rest =>
      refine (isDirectory p).bind fun there => ?_
      cases there
      · exact ih
      · exact .pure _

theorem closestManifest? (p : Path) : Steady (Hunt.closestManifest? p) :=
  (toDirectory p.ancestors).bind firstManifest?

/-! ### What packages offer -/

variable {outside : String → Hunt (Option Path)}

theorem filled (package : Path) (key target : String) (star : Option String) :
    Steady (Offers.filled package key target star) := by
  unfold Offers.filled
  split
  · exact .pure _
  · split
    · split
      · exact .pure _
      · exact .throw _
    · exact .pure _

theorem textTarget (package : Path) (out : ∀ text, Steady (outside text)) (key text : String)
    (star : Option String) : Steady (Offers.textTarget package outside key text star) := by
  unfold Offers.textTarget
  split
  · refine (filled package key _ star).bind fun target => ?_
    split
    · exact out target
    · split
      · exact .throw _
      · exact .pure _
  · exact .throw _

mutual

theorem target (package : Path) (out : ∀ text, Steady (outside text)) (key : String)
    (star : Option String) : ∀ value, Steady (Offers.target package outside key star value)
  | .string text => textTarget package out key text star
  | .object fields => firstCondition package out key star fields
  | .array [] => .throw _
  | .array (item :: items) => firstItem package out key star (item :: items)
  | .null | .bool _ | .number _ => .pure none

theorem firstCondition (package : Path) (out : ∀ text, Steady (outside text)) (key : String)
    (star : Option String) :
    ∀ fields, Steady (Offers.firstCondition package outside key star fields)
  | [] => .pure none
  | (condition, value) :: rest => by
    unfold Offers.firstCondition
    split
    · refine (target package out key star value).bind fun found => ?_
      cases found with
      | some path => exact .pure _
      | none => exact firstCondition package out key star rest
    · exact firstCondition package out key star rest

theorem firstItem (package : Path) (out : ∀ text, Steady (outside text)) (key : String)
    (star : Option String) : ∀ items, Steady (Offers.firstItem package outside key star items)
  | [] => .pure none
  | value :: rest => by
    refine ((target package out key star value).tryCatch fun _ => .pure none).bind fun found => ?_
    cases found with
    | some path => exact .pure _
    | none => exact firstItem package out key star rest

end

theorem named (package : Path) (out : ∀ text, Steady (outside text))
    (table : List (String × Json)) (name : String) :
    Steady (Offers.named package outside table name) := by
  unfold Offers.named
  split
  · exact .pure none
  · split
    · exact target package out _ _ _
    · split
      · exact target package out _ _ _
      · exact .pure none

theorem refuse (package : Path) (key text : String) : Steady (Offers.refuse package key text) :=
  .throw _

theorem offered (package : Path) (offers : Json) (wanted tail : String) :
    Steady (Offers.offered package offers wanted tail) := by
  have byName := named package (refuse package wanted) ((Manifest.fields? offers).getD []) wanted
  unfold Offers.offered
  dsimp only
  split
  · exact .stop _ _
  · split
    · split
      · exact .stop _ _
      · split
        · refine (target package (refuse package ".") "." none _).option .pure ?_
          exact byName.option .pure (.throw _)
        · exact byName.option .pure (.throw _)
    · exact byName.option .pure (.throw _)

/-! ### Files and packages -/

theorem firstFound {γ : Type} {hunt : γ → Hunt (Option β)} (each : ∀ x, Steady (hunt x))
    (xs : List γ) : Steady (firstFound hunt xs) := by
  induction xs with
  | nil => exact .pure none
  | cons x xs ih => exact (each x).option (fun found => .pure (some found)) ih

theorem fileAt (p : Path) : Steady (fileAt p) := (isFile p).bind fun _ => .pure _

theorem extendedFile (extensions : List String) (p : Path) : Steady (extendedFile extensions p) :=
  firstFound (fun _ => fileAt _) extensions

theorem asFile (extensions : List String) (p : Path) : Steady (asFile extensions p) := by
  have extended := extendedFile extensions p
  unfold Project.asFile
  dsimp only
  split
  · exact (fileAt p).option (fun found => .pure (some found)) extended
  · exact extended

theorem indexOf (extensions : List String) (directory : Path) :
    Steady (indexOf extensions directory) := asFile extensions _

theorem asDirectory (extensions : List String) (directory : Path) :
    Steady (asDirectory extensions directory) := by
  have index := indexOf extensions directory
  unfold Project.asDirectory
  dsimp only
  refine (manifest? directory).option (fun manifest => ?_) index
  dsimp only
  split
  · refine (asFile extensions _).option (fun found => .pure (some found)) ?_
    exact (indexOf extensions _).option (fun found => .pure (some found)) index
  · exact index

theorem asFileOrDirectory (extensions : List String) (p : Path) (written : String) :
    Steady (asFileOrDirectory extensions p written) := by
  have directory : Steady (Hunt.isDirectory p >>= fun there =>
      if there then Project.asDirectory extensions p else Pure.pure none) :=
    (isDirectory p).bool (asDirectory extensions p) (.pure none)
  unfold Project.asFileOrDirectory
  dsimp only
  split
  · exact (asFile extensions p).option (fun found => .pure (some found)) directory
  · exact directory

theorem refuseBuiltIn (path : String) : Steady (refuseBuiltIn path) := by
  unfold Project.refuseBuiltIn
  split
  · exact .throw _
  · split
    · exact .throw _
    · exact .pure ()

theorem asOffered (extensions : List String) (specifier : String) (p : Path) :
    Steady (asOffered extensions specifier p) := by
  refine (asFileOrDirectory extensions p "").option .pure ?_
  exact (firstFound (fun text => asFileOrDirectory extensions ⟨text⟩ "") _).option .pure (.throw _)

theorem inPackages (extensions : List String) (path tail : String) (packages : Path) :
    Steady (inPackages extensions path tail packages) := by
  have whole := asFileOrDirectory extensions (packages.walk ⟨path⟩) path
  unfold Project.inPackages
  dsimp only
  refine (isDirectory packages).bool ?_ (.pure none)
  refine (isDirectory _).bool ?_ ?_
  · refine (manifest? _).option (fun manifest => ?_) whole
    dsimp only
    split
    · exact (offered _ _ _ _).bind fun found => (asOffered _ _ _).bind fun _ => .pure _
    · exact whole
  · rw [if_neg Bool.false_ne_true]
    split
    · exact .pure none
    · split
      · split
        · exact (isDirectory _).bool whole (.pure none)
        · exact whole
      · exact whole

theorem inOwnPackage (extensions : List String) (directory : Path) (path tail : String) :
    Steady (inOwnPackage extensions directory path tail) := by
  unfold Project.inOwnPackage
  dsimp only
  refine (closestManifest? directory).option (fun around => ?_) (.pure none)
  dsimp only
  split
  · split
    · exact .pure none
    · split
      · exact .pure none
      · exact (offered _ _ _ _).bind fun found => (asOffered _ _ _).bind fun _ => .pure _
  · exact .pure none

theorem asPackage (extensions : List String) (directory : Path) (path tail : String) :
    Steady (asPackage extensions directory path tail) := by
  unfold Project.asPackage
  refine (inOwnPackage extensions directory path tail).option .pure ?_
  refine (firstFound (fun base => ?_) directory.ancestors).option .pure (.throw _)
  exact (isDirectory base).bool (inPackages _ _ _ _) (.pure none)

theorem asRelative (extensions : List String) (directory : Path) (path : String) :
    Steady (asRelative extensions directory path) :=
  (asFileOrDirectory extensions _ _).option .pure (.throw _)

theorem asAbsolute (extensions : List String) (path : String) :
    Steady (asAbsolute extensions path) :=
  (asFileOrDirectory extensions _ _).option .pure (.throw _)

theorem otherPackage (extensions : List String) (package : Path) (path : String) :
    Steady (otherPackage extensions package path) := by
  unfold Project.otherPackage
  dsimp only
  refine (refuseBuiltIn _).bind fun _ => ?_
  refine (firstFound (fun packages => ?_) _).option (fun found => .pure (some found)) (.throw _)
  refine (isDirectory packages).bool ?_ (.pure none)
  refine (isDirectory _).bool ?_ (.pure none)
  have inner := (asRelative extensions (packages.walk ⟨(Specifier.packageParts path).1⟩) ("." ++ (Specifier.packageParts path).2)).map some
  refine (manifest? _).option (fun manifest => ?_) ?_
  · dsimp only
    split
    · exact (offered _ _ _ _).bind fun _ => .pure _
    · exact (asRelative _ _ _).bind fun _ => .pure _
  · exact (asRelative _ _ _).bind fun _ => .pure _

theorem asTaken (extensions : List String) (directory : Path) (path : String) :
    Steady (asTaken extensions directory path) := by
  unfold Project.asTaken
  dsimp only
  refine (closestManifest? directory).option (fun around => ?_) (.pure none)
  dsimp only
  split
  · split
    · exact .stop _ _
    · refine (named _ (fun text => ?_) _ path).option (fun found => ?_) (.throw _)
      · split
        · exact .throw _
        · exact otherPackage _ _ _
      · exact (asOffered _ _ _).bind fun _ => .pure _
  · exact .pure none

theorem asPath (extensions : List String) (directory : Path) (path tail : String) :
    Steady (asPath extensions directory path tail) := by
  have package := asPackage extensions directory path tail
  unfold Project.asPath
  split
  · exact asAbsolute extensions path
  · exact asRelative extensions directory path
  · exact asRelative extensions directory path
  · split
    · exact (asTaken extensions directory path).option .pure package
    · exact (refuseBuiltIn path).bind fun _ => package

theorem asSpecifier (extensions : List String) (directory : Path) (specifier : String) :
    Steady (asSpecifier extensions directory specifier) := by
  unfold Project.asSpecifier
  dsimp only
  split
  · next parsed _ =>
    have known := fun tail => asPath extensions directory parsed.path tail
    split
    · refine Steady.option ?_ .pure (known _)
      exact ((asPath _ _ _ _).map some).tryCatch fun _ => .pure none
    · exact known _
  · exact .throw _

theorem checkPackage (file : Path) : Steady (checkPackage file) := by
  unfold Project.checkPackage
  dsimp only
  split
  · refine (sweep (fun p => ?_) _).bind fun _ => .pure ()
    exact (isDirectory p).bool ((manifest? p).bind fun _ => .pure _) (.pure _)
  · exact (closestManifest? file).bind fun _ => .pure _

/-- **Locating is steady.** -/
theorem locate (extensions : List String) (directory : Path) (specifier : String) :
    Steady (locate extensions directory specifier) :=
  (asSpecifier extensions directory specifier).bind fun found =>
    (checkPackage found).bind fun _ => .pure _

end Steady

/-! ### Projects -/

/-- What a project sees. -/
def sight (p : Project) : Sight := p.memory.sight p.disk

/-- What specifiers stand for: a file, or something that is no file of the program. -/
abbrev Meaning := String → Except ResolveFault (Option Path)

/-- What the specifiers in a source file stand for. -/
def found (p : Project) (source : Path) : Meaning := fun specifier =>
  (p.resolve specifier source).1

/-- A project that sees what another one sees, and looks in the same way. -/
structure SeesAs (p p' : Project) : Prop where
  root : p.root = p'.root
  extensions : p.extensions = p'.extensions
  sight : p.sight = p'.sight

variable {p p' p'' : Project}

theorem SeesAs.refl (p : Project) : p.SeesAs p := ⟨rfl, rfl, rfl⟩

theorem SeesAs.trans (h : p.SeesAs p') (t : p'.SeesAs p'') : p.SeesAs p'' :=
  ⟨h.root.trans t.root, h.extensions.trans t.extensions, h.sight.trans t.sight⟩

/-- What a hunt brings, as the answer to a specifier. -/
def answerOf (specifier : String) (source : Path) :
    Except LocateFault Path → Except ResolveFault (Option Path)
  | .ok file => .ok (some file)
  | .error (.builtIn _) => .ok none
  | .error fault => .error (.unresolved specifier source fault.message)

/-- A specifier is resolved by one hunt, from the directory of the source file. -/
theorem resolve_eq (p : Project) (specifier : String) (source : Path) :
    p.resolve specifier source =
      (answerOf specifier source
        ((locate p.extensions (source.parent?.getD p.root) specifier).on p.disk p.memory).1,
      { p with memory :=
          ((locate p.extensions (source.parent?.getD p.root) specifier).on p.disk p.memory).2 }) := by
  unfold resolve Hunt.on
  dsimp only
  generalize ((locate p.extensions (source.parent?.getD p.root) specifier).run.run p.disk).run
    p.memory = seen
  obtain ⟨fault | file, memory⟩ := seen
  · cases fault <;> rfl
  · rfl

/-- **One function:** projects that see the same make the same of every specifier. -/
theorem SeesAs.found_eq (h : p.SeesAs p') (source : Path) : p.found source = p'.found source := by
  funext specifier
  simp only [found, resolve_eq, h.root, h.extensions]
  exact congrArg (answerOf specifier source) ((Steady.locate _ _ _).same h.sight)

/-- To resolve a specifier changes nothing of what is seen. -/
theorem seesAs_resolve (p : Project) (specifier : String) (source : Path) :
    (p.resolve specifier source).2.SeesAs p := by
  rw [resolve_eq]
  exact ⟨rfl, rfl, (Steady.locate _ _ _).kept _ _⟩

/-- Numbers are not seen. -/
theorem seesAs_idOf (p : Project) (q : Path) : (p.idOf q).2.SeesAs p := by
  unfold idOf
  split <;> exact ⟨rfl, rfl, rfl⟩

end HotReload.Project

namespace HotReload

/-! ### A file that is rewritten -/

namespace Disk

variable {d d' : Disk} {edited : List String}

/-- A disk on which the file at a place has another content, and all else is as it was. -/
structure Rewritten (d : Disk) (edited : List String) (d' : Disk) : Prop where
  others : ∀ place, place ≠ edited → d'.entry? place = d.entry? place
  before : ∃ content, d.entry? edited = some (.file content)
  after : ∃ content, d'.entry? edited = some (.file content)

namespace Rewritten

/-- What is at a place: what was there, or another content of the file. -/
theorem kind (h : d.Rewritten edited d') (place : List String) :
    d'.entry? place = d.entry? place ∨ ∃ content content',
      d.entry? place = some (.file content) ∧ d'.entry? place = some (.file content') := by
  by_cases here : place = edited
  · obtain ⟨content, before⟩ := h.before
    obtain ⟨content', after⟩ := h.after
    rw [here]
    exact .inr ⟨content, content', before, after⟩
  · exact .inl (h.others place here)

/-- Every path leads where it led. -/
theorem follow (h : d.Rewritten edited d') (place : List String) (cs : List Path.Component) :
    d'.follow place cs = d.follow place cs := by
  induction cs generalizing place with
  | nil => rfl
  | cons c cs ih =>
    rcases h.kind place with same | ⟨content, content', before, after⟩
    · simp only [Disk.follow, same, ih]
    · simp only [Disk.follow, before, after]

/-- What is a directory is one, and what is a file is one. -/
theorem stat_kind (h : d.Rewritten edited d') (p : Path) :
    (d'.stat p).toOption.map DiskEntry.isDirectory =
      (d.stat p).toOption.map DiskEntry.isDirectory := by
  rw [stat, stat, h.follow]
  cases leads : d.follow [] p.components with
  | error fault => rfl
  | ok place =>
    rcases h.kind place with same | ⟨content, content', before, after⟩
    · simp only [same]
    · simp only [before, after, DiskEntry.isDirectory]
      split
      · rfl
      · cases wantsDirectory p <;> rfl

/-- **Files of other names are read as before.** -/
theorem read (h : d.Rewritten edited d') {p : Path} {front : List Path.Component} {name : String}
    (last : p.components = front ++ [.normal name]) (other : edited.getLast? ≠ some name) :
    d'.read p = d.read p := by
  rw [Disk.read, Disk.read, stat, stat, h.follow]
  cases leads : d.follow [] p.components with
  | error fault => rfl
  | ok place =>
    rw [last] at leads
    obtain ⟨mid, -, step⟩ := follow_append_ok.mp leads
    have reached : place = mid ++ [name] := (Except.ok.inj (follow_cons_ok.mp step).2).symm
    have elsewhere : place ≠ edited := by
      rintro rfl
      rw [reached, List.getLast?_concat] at other
      exact other rfl
    simp only [h.others place elsewhere]

end Rewritten

end Disk

namespace Project

theorem exists_components_manifest (directory : Path) :
    ∃ front, (directory.join ⟨Manifest.fileName⟩).components =
      front ++ [.normal Manifest.fileName] := by
  have relative : (⟨Manifest.fileName⟩ : Path).isAbsolute = false := by decide +kernel
  by_cases blank : directory.text = ""
  · refine ⟨[], ?_⟩
    rw [Path.join, relative, if_neg Bool.false_ne_true, if_pos (.inl blank), blank]
    decide +kernel
  · exact ⟨directory.components, Path.components_join blank relative⟩

/-- A project that has forgotten what it has seen. -/
def forgotten (p : Project) : Project := { p with memory := {} }

/-- **To rewrite a file** that is no manifest changes nothing of what specifiers stand for. -/
theorem SeesAs.of_rewritten {p p' : Project} {edited : List String} (root : p.root = p'.root)
    (extensions : p.extensions = p'.extensions) (h : p.disk.Rewritten edited p'.disk)
    (other : edited.getLast? ≠ some Manifest.fileName) : p.forgotten.SeesAs p'.forgotten where
  root := root
  extensions := extensions
  sight := by
    refine Sight.ext (funext fun q => (h.stat_kind q).symm) (funext fun directory => ?_)
    obtain ⟨front, last⟩ := exists_components_manifest directory
    change manifestOn p.disk directory = manifestOn p'.disk directory
    rw [manifestOn, manifestOn, h.read last other]

end Project

end HotReload
