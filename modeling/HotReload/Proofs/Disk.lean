import HotReload.Disk
import HotReload.Proofs.Assoc
import HotReload.Proofs.Path.Clean

/-!
# Clean paths on a disk

A path that leads through a missing directory leads nowhere, though its clean spelling may lead
somewhere: `gone/..` is the case.  A path that leads to a place leads there in its clean spelling
too, since every place that it leaves by `..` is a directory that is there.

* `Disk.follow_append_ok`: a path is followed piece by piece.
* `Disk.follow_clean`: what a path leads to, its clean spelling leads to.
* `Disk.stat_under`: what is in a directory; `Disk.stat_clean_under`: under any spelling of it.
-/

namespace HotReload

namespace Path

/-- A path that is one name. -/
structure IsOne (p : Path) (name : String) : Prop where
  relative : p.isAbsolute = false
  body : p.body = [.normal name]
  plain : Disk.wantsDirectory p = false

end Path

namespace Disk

open HotReload.Path (Component)

variable {d : Disk} {place : List String}

/-- Where a component leads from a directory. -/
def stepped (place : List String) : Component → List String
  | .normal name => place ++ [name]
  | .parent => place.dropLast
  | .root | .current => place

/-- A path leads on from directories alone. -/
theorem follow_cons_ok {goal : List String} {c : Component} {cs : List Component} :
    d.follow place (c :: cs) = .ok goal ↔
      d.entry? place = some .directory ∧ d.follow (stepped place c) cs = .ok goal := by
  cases there : d.entry? place with
  | none => simp [follow, there]
  | some entry =>
    cases entry with
    | file => simp [follow, there]
    | directory => cases c <;> simp [follow, there, stepped]

/-- **A path is followed piece by piece.** -/
theorem follow_append_ok {goal : List String} {cs ds : List Component} :
    d.follow place (cs ++ ds) = .ok goal ↔
      ∃ mid, d.follow place cs = .ok mid ∧ d.follow mid ds = .ok goal := by
  induction cs generalizing place with
  | nil => simp [follow]
  | cons c cs ih =>
    simp only [List.cons_append, follow_cons_ok, ih]
    constructor
    · rintro ⟨there, mid, front, back⟩
      exact ⟨mid, ⟨there, front⟩, back⟩
    · rintro ⟨mid, ⟨there, front⟩, back⟩
      exact ⟨there, mid, front, back⟩

/-- What is replaced behind a front, with nothing new in the tail. -/
theorem tail_append_subset {front cs ds : List Component} (all : ds ⊆ cs)
    (tails : ds.tail ⊆ cs.tail) : (front ++ ds).tail ⊆ (front ++ cs).tail := by
  cases front with
  | nil => exact tails
  | cons c front =>
    exact List.append_subset.mpr
      ⟨List.subset_append_left _ _, List.subset_append_of_subset_right _ all⟩

/-- No rule brings anything into the tail. -/
theorem tail_subset_of_shortens {cs ds : List Component} (h : Component.Shortens cs ds) :
    ds.tail ⊆ cs.tail := by
  cases h with
  | current front back =>
    exact tail_append_subset (List.subset_cons_self _ _) (List.tail_sublist _).subset
  | parent front back name =>
    exact tail_append_subset
      (List.subset_cons_of_subset _ (List.subset_cons_self _ _))
      (List.subset_cons_of_subset _ (List.tail_sublist _).subset)
  | top front back =>
    exact tail_append_subset
      (List.cons_subset_cons _ (List.subset_cons_self _ _)) (List.subset_cons_self _ _)

/-- A path without a detour leads to the same place. -/
theorem follow_of_shortens {goal : List String} {cs ds : List Component}
    (shortens : Component.Shortens cs ds) (top : Component.root ∉ cs.tail)
    (h : d.follow [] cs = .ok goal) : d.follow [] ds = .ok goal := by
  cases shortens with
  | current front back =>
    obtain ⟨mid, first, rest⟩ := follow_append_ok.mp h
    exact follow_append_ok.mpr ⟨mid, first, (follow_cons_ok.mp rest).2⟩
  | parent front back name =>
    obtain ⟨mid, first, rest⟩ := follow_append_ok.mp h
    obtain ⟨-, rest⟩ := follow_cons_ok.mp rest
    obtain ⟨-, rest⟩ := follow_cons_ok.mp rest
    refine follow_append_ok.mpr ⟨mid, first, ?_⟩
    rwa [stepped, stepped, List.dropLast_concat] at rest
  | top front back =>
    -- the root is the first component alone, and a step up from it stays there
    cases front with
    | nil => exact h
    | cons c front => exact absurd (List.mem_append_right front List.mem_cons_self) top

/-- **What a path leads to, its clean spelling leads to.** -/
theorem follow_clean {p : Path} (absolute : p.isAbsolute = true)
    (h : d.follow [] p.components = .ok place) : d.follow [] p.clean.components = .ok place := by
  obtain ⟨-, -, -, normal⟩ := Path.components_clean absolute
  have top : Component.root ∉ p.components.tail := by
    rw [Path.components_of_absolute absolute, List.tail_cons]
    exact fun mem => by cases (Path.spelled_of_mem_body mem).piece
  have both (cs : List Component) (reached : Relation.ReflTransGen Component.Shortens
      p.components cs) : d.follow [] cs = .ok place ∧ Component.root ∉ cs.tail := by
    induction reached with
    | refl => exact ⟨h, top⟩
    | tail _ shortens ih =>
      exact ⟨follow_of_shortens shortens ih.2 ih.1,
        fun mem => ih.2 (tail_subset_of_shortens shortens mem)⟩
  exact (both _ normal.reached).1

/-! ### What is at a path -/

theorem stat_of_lost {p : Path} (absolute : p.isAbsolute = true) {fault : DiskFault}
    (lost : d.follow [] p.components = .error fault) : d.stat p = .error fault := by
  rw [stat, if_neg (Path.text_ne_empty absolute), lost]

theorem stat_of_leads {p : Path} (absolute : p.isAbsolute = true)
    (leads : d.follow [] p.components = .ok place) :
    d.stat p = match d.entry? place with
      | none => .error .missing
      | some entry =>
        if wantsDirectory p && !entry.isDirectory then .error .notDirectory else .ok entry := by
  cases there : d.entry? place <;>
    simp only [stat, if_neg (Path.text_ne_empty absolute), leads, there]

/-- What is read is what the disk has at some place. -/
theorem mem_of_read {p : Path} {content : ByteArray} (h : d.read p = .ok content) :
    ∃ place, (place, DiskEntry.file content) ∈ d.entries := by
  have there : d.stat p = .ok (.file content) := by
    unfold read at h
    split at h
    · next there =>
      cases h
      exact there
    · cases h
    · cases h
  unfold stat at there
  split at there
  · cases there
  · split at there
    · cases there
    · next place _ =>
      split at there
      · cases there
      · next entry here =>
        split at there
        · cases there
        · cases there
          unfold entry? at here
          split at here
          · cases here
          · exact ⟨place, Assoc.mem_of_get?_eq here⟩

/-- There is a directory at an absolute path exactly if it leads to one. -/
theorem isDirectory_iff {p : Path} (absolute : p.isAbsolute = true) :
    d.isDirectory p = true ↔
      ∃ place, d.follow [] p.components = .ok place ∧ d.entry? place = some .directory := by
  unfold isDirectory
  cases leads : d.follow [] p.components with
  | error fault => simp [stat_of_lost absolute leads]
  | ok place =>
    rw [stat_of_leads absolute leads]
    cases there : d.entry? place with
    | none => simp [there]
    | some entry =>
      cases entry with
      | directory => simp [there, DiskEntry.isDirectory]
      | file => cases wantsDirectory p <;> simp [there, DiskEntry.isDirectory]

theorem wantsDirectory_join {p next : Path} (absolute : p.isAbsolute = true)
    (relative : next.isAbsolute = false) : wantsDirectory (p.join next) = wantsDirectory next := by
  obtain ⟨stem, whole, -⟩ := Path.exists_join_eq absolute relative
  have last := List.getLast?_eq_some_getLast next.pieces_ne_nil
  rw [whole, wantsDirectory, wantsDirectory, Path.pieces_slash, List.getLast?_append, last]
  rfl

section Under

variable {p next : Path} {name : String} (absolute : p.isAbsolute = true) (one : next.IsOne name)

include absolute one

theorem components_join_one : (p.join next).components = p.components ++ [.normal name] := by
  obtain ⟨rooted, body⟩ := Path.body_join absolute one.relative
  rw [Path.components_of_absolute rooted, body, one.body, Path.components_of_absolute absolute,
    List.cons_append]

/-- **What is in a directory.** -/
theorem stat_under (leads : d.follow [] p.components = .ok place)
    (there : d.entry? place = some .directory) :
    d.stat (p.join next) = (d.entry? (place ++ [name])).elim (.error .missing) .ok := by
  have follows : d.follow [] (p.join next).components = .ok (place ++ [name]) := by
    rw [components_join_one absolute one]
    exact follow_append_ok.mpr ⟨place, leads, follow_cons_ok.mpr ⟨there, rfl⟩⟩
  rw [stat_of_leads (Path.isAbsolute_join absolute next) follows,
    wantsDirectory_join absolute one.relative, one.plain]
  cases d.entry? (place ++ [name]) <;> rfl

/-- What is there is in a directory. -/
theorem isDirectory_of_isFile (h : d.isFile (p.join next) = true) : d.isDirectory p = true := by
  rw [isDirectory_iff absolute]
  cases leads : d.follow [] (p.join next).components with
  | error fault =>
    rw [isFile, stat_of_lost (Path.isAbsolute_join absolute next) leads] at h
    cases h
  | ok goal =>
    rw [components_join_one absolute one] at leads
    obtain ⟨place, there, rest⟩ := follow_append_ok.mp leads
    exact ⟨place, there, (follow_cons_ok.mp rest).1⟩

/-- **A directory holds the same under any spelling of its path.** -/
theorem stat_clean_under (there : d.isDirectory p = true) :
    d.stat (p.clean.join next) = d.stat (p.join next) := by
  obtain ⟨place, leads, directory⟩ := (isDirectory_iff absolute).mp there
  obtain ⟨names, root, -⟩ := Path.components_clean absolute
  rw [stat_under absolute one leads directory,
    stat_under (Path.isAbsolute_of_components root).1 one (follow_clean absolute leads) directory]

end Under

end Disk

end HotReload
