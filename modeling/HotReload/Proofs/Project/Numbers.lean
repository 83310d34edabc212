import HotReload.Project.Basic
import HotReload.Proofs.Graph.Alike
import Mathlib.Data.List.Nodup

/-!
# The numbers of a project

A project gives a path its number when it first meets it.  Whatever it is asked, its table of
numbers only grows at its end: what has a number keeps it, and two paths have one number only where
there are more paths than numbers.

* `Project.Grows`: a project after some questions, or after a change of the disk.
* `Project.Numbered.unique`: one number, one path.
* `Project.grows_moduleOf`, `grows_dependencies`, `grows_bodyOf`: whatever is asked, numbers stay.
-/

namespace HotReload.Project

variable {p p' p'' : Project}

/-- The number of a path, where it has one. -/
def number? (p : Project) (q : Path) : Option ModuleId := Assoc.get? p.ids q

/-- A module has the number of its path. -/
def Knows (p : Project) (m : Module) : Prop := p.number? m.path = some m.id

theorem number?_congr {q r : Path} (same : (q == r) = true) : p.number? q = p.number? r :=
  Assoc.get?_congr same

/-! ### The table -/

/-- Each path is in the table once, and has its place there as its number. -/
structure Numbered (p : Project) : Prop where
  places : ∀ (i : Nat) (e : Path × ModuleId), p.ids[i]? = some e → e.2 = i.toUInt32
  distinct : (Path.meanings (p.ids.map (·.1))).Nodup

/-- **One number, one path,** as long as there are not more paths than numbers. -/
theorem Numbered.unique (h : p.Numbered) (few : p.ids.length ≤ UInt32.size) {q r : Path}
    {id : ModuleId} (hq : p.number? q = some id) (hr : p.number? r = some id) :
    (q == r) = true := by
  have place : ∀ {q : Path}, p.number? q = some id →
      ∃ i k, p.ids[i]? = some (k, id) ∧ (k == q) = true ∧ i < UInt32.size := by
    intro q known
    obtain ⟨k, mem, same⟩ := Assoc.mem_of_get? known
    obtain ⟨i, here, at_⟩ := List.mem_iff_getElem.mp mem
    exact ⟨i, k, List.getElem?_eq_some_iff.mpr ⟨here, at_⟩, same, Nat.lt_of_lt_of_le here few⟩
  obtain ⟨i, k, at_i, same, lt_i⟩ := place hq
  obtain ⟨j, l, at_j, same', lt_j⟩ := place hr
  have equal : i.toUInt32 = j.toUInt32 := by
    rw [← h.places i _ at_i, ← h.places j _ at_j]
  have places : i = j := by
    have numbers : (UInt32.ofNat i).toNat = (UInt32.ofNat j).toNat := congrArg UInt32.toNat equal
    rwa [UInt32.toNat_ofNat_of_lt' lt_i, UInt32.toNat_ofNat_of_lt' lt_j] at numbers
  rw [places, at_j] at at_i
  cases at_i
  exact BEq.trans (BEq.symm same) same'

/-! ### Growth -/

/-- A project later on: its table has grown at its end, or stayed as it was. -/
structure Grows (p p' : Project) : Prop where
  ids : p.ids <+: p'.ids
  root : p'.root = p.root
  numbered : p.Numbered → p'.Numbered

namespace Grows

/-- The files change, or more of them is seen. -/
theorem of_disk (p : Project) (disk : Disk) (memory : Memory) :
    p.Grows { p with disk, memory } where
  ids := List.prefix_rfl
  root := rfl
  numbered h := ⟨h.places, h.distinct⟩

theorem refl (p : Project) : p.Grows p := of_disk p p.disk p.memory

theorem trans (h : p.Grows p') (t : p'.Grows p'') : p.Grows p'' :=
  ⟨h.ids.trans t.ids, t.root.trans h.root, fun numbered => t.numbered (h.numbered numbered)⟩

/-- **Numbers stay.** -/
theorem number? (h : p.Grows p') {q : Path} {id : ModuleId} (known : p.number? q = some id) :
    p'.number? q = some id := by
  obtain ⟨more, whole⟩ := h.ids
  rw [Project.number?, Assoc.get?, ← whole, List.find?_append]
  rw [Project.number?, Assoc.get?, Option.map_eq_some_iff] at known
  obtain ⟨e, found, rfl⟩ := known
  rw [found]
  rfl

theorem knows (h : p.Grows p') {m : Module} (known : p.Knows m) : p'.Knows m := h.number? known

end Grows

/-! ### Giving numbers -/

theorem idOf_of_number? {q : Path} {id : ModuleId} (known : p.number? q = some id) :
    p.idOf q = (id, p) := by
  rw [number?] at known
  simp only [idOf, known]

theorem idOf_of_new {q : Path} (new : p.number? q = none) :
    p.idOf q = (p.ids.length.toUInt32,
      { p with ids := p.ids ++ [(q, p.ids.length.toUInt32)] }) := by
  rw [number?] at new
  simp only [idOf, new]

/-- The number that is given is the number from then on. -/
theorem number?_idOf (p : Project) (q : Path) : (p.idOf q).2.number? q = some (p.idOf q).1 := by
  cases known : p.number? q with
  | some id => rw [idOf_of_number? known, known]
  | none =>
    rw [idOf_of_new known, number?, Assoc.get?, List.find?_append]
    rw [number?, Assoc.get?, Option.map_eq_none_iff] at known
    simp [known]

theorem grows_idOf (p : Project) (q : Path) : p.Grows (p.idOf q).2 := by
  cases known : p.number? q with
  | some id =>
    rw [idOf_of_number? known]
    exact .refl p
  | none =>
    rw [idOf_of_new known]
    refine ⟨List.prefix_append _ _, rfl, fun h => ⟨fun i e at_ => ?_, ?_⟩⟩
    · rcases Nat.lt_or_ge i p.ids.length with here | behind
      · rw [List.getElem?_append_left here] at at_
        exact h.places i e at_
      · rw [List.getElem?_append_right behind, List.getElem?_singleton] at at_
        split at at_
        · next last =>
          cases at_
          rw [show i = p.ids.length by omega]
        · cases at_
    · rw [List.map_append, Path.meanings_append, List.nodup_append]
      refine ⟨h.distinct, List.nodup_singleton _, fun c mem c' mem' same => ?_⟩
      obtain ⟨k, there, rfl⟩ := List.mem_map.mp mem
      obtain ⟨e, entry, rfl⟩ := List.mem_map.mp there
      rw [List.mem_singleton.mp mem'] at same
      have absent := Assoc.get?_eq_none_iff.mp known
      rw [Assoc.contains, List.any_eq_false] at absent
      exact absent e entry (Path.beq_iff.mpr same)

/-- A file is found as a module with the number of its path. -/
theorem moduleOf_ok {q : Path} {m : Module} (found : (moduleOf q p).1 = .ok m) :
    (moduleOf q p).2.Knows m := by
  unfold moduleOf at found ⊢
  split at found
  · next there =>
    cases found
    rw [if_pos there]
    exact number?_idOf p q
  · cases found

theorem grows_moduleOf (q : Path) (p : Project) : p.Grows (moduleOf q p).2 := by
  unfold moduleOf
  split
  · exact grows_idOf p q
  · exact .refl p

/-! ### Reading and building -/

theorem grows_resolve (p : Project) (specifier : String) (source : Path) :
    p.Grows (p.resolve specifier source).2 := by
  simp only [resolve]
  split
  split <;> exact .of_disk p p.disk _

theorem grows_locateAll (source : Path) (files : List Path) (p : Project)
    (specifiers : List String) : p.Grows (locateAll source files p specifiers).2 := by
  induction specifiers generalizing files p with
  | nil => exact .refl p
  | cons specifier rest ih =>
    have kept := p.grows_resolve specifier source
    unfold locateAll
    split
    · next found =>
      rw [found] at kept
      exact kept
    · next found =>
      rw [found] at kept
      exact kept.trans (ih files _)
    · next found =>
      rw [found] at kept
      exact kept.trans (ih _ _)

/-- Dependencies are found without numbers. -/
theorem grows_dependencies (lookup : Lookup) (p : Project) :
    p.Grows (dependencies lookup p).2 := by
  simp only [dependencies]
  split
  · exact .refl p
  · split
    · exact .refl p
    · exact (Grows.of_disk p p.disk {}).trans (grows_locateAll _ _ _ _)

/-- The number for a file that is required: the program's, or else the project's own. -/
def numberFor (resolution : Resolution) (file : Path) (p : Project) : ModuleId × Project :=
  match resolution.idFor? file with
  | some id => (id, p)
  | none => p.idOf file

theorem grows_numberFor (resolution : Resolution) (file : Path) (p : Project) :
    p.Grows (numberFor resolution file p).2 := by
  unfold numberFor
  split
  · exact .refl p
  · exact grows_idOf p file

/-- The patches for one record and those after it. -/
theorem requirePatches_cons (source : Path) (resolution : Resolution) (p : Project)
    (record : Script.ImportRecord) (rest : Script.Imports) :
    requirePatches source resolution p (record :: rest) =
      match p.resolve record.specifier source with
      | (.error fault, p) => (.error fault, p)
      | (.ok none, p) => requirePatches source resolution p rest
      | (.ok (some file), p) =>
        let (id, p) := numberFor resolution file p
        let (patches, p) := requirePatches source resolution p rest
        (patches.map (⟨record.start, record.stop, toString id⟩ :: ·), p) := by
  rw [requirePatches]
  generalize p.resolve record.specifier source = found
  obtain ⟨_ | _ | file, p₁⟩ := found
  · rfl
  · rfl
  · -- whichever number it is, the patches behind it come from one call
    cases known : resolution.idFor? file with
    | some id =>
      simp only [numberFor, known]
      rcases requirePatches source resolution p₁ rest with ⟨_ | _, p₂⟩ <;> rfl
    | none =>
      simp only [numberFor, known]
      rcases requirePatches source resolution (p₁.idOf file).2 rest with ⟨_ | _, p₂⟩ <;> rfl

theorem grows_requirePatches (source : Path) (resolution : Resolution) (p : Project)
    (records : Script.Imports) : p.Grows (requirePatches source resolution p records).2 := by
  induction records generalizing p with
  | nil => exact .refl p
  | cons record rest ih =>
    have kept := p.grows_resolve record.specifier source
    rw [requirePatches_cons]
    generalize p.resolve record.specifier source = found at kept
    obtain ⟨_ | _ | file, p₁⟩ := found
    · exact kept
    · exact kept.trans (ih p₁)
    · exact kept.trans ((grows_numberFor resolution file p₁).trans (ih _))

/-- **To build a module** gives numbers at most. -/
theorem grows_bodyOf (job : BuildJob) (m : Module) (p : Project) : p.Grows (bodyOf job m p).2 := by
  unfold bodyOf
  split
  · exact .refl p
  · split
    · exact .refl p
    · split <;> exact .refl p
  · split
    · exact .refl p
    · split
      · exact .refl p
      · exact grows_requirePatches _ _ _ _

end HotReload.Project
