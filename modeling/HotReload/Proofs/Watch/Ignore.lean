import HotReload.Proofs.Path.Below
import HotReload.Watch.Ignore

/-!
# What is not watched

Whether a path is watched is decided by what lies below the root alone.  The root's own components
do not matter, be they hidden or named by a pattern; and what is left out by its own name is left
out with all below it.  A pattern that starts with `*` looks at the end of the whole path, and so it
does not close a directory.

* `isIgnored_iff`: what is ignored below a root.
* `LeftOut`: a component that is left out by its own name.
* `isIgnored_local`: what holds of a list of patterns below every root.
-/

namespace HotReload

namespace Watch

variable {patterns : List String} {root path below : Path}

/-- A pattern without a star in front names the paths that have it as a component. -/
theorem isNamed_plain {pattern : String} (plain : pattern.toList.head? ≠ some '*') (below : Path) :
    isNamed pattern below = below.components.any fun c => c.text = pattern := by
  unfold isNamed
  split
  · next opens => exact absurd (congrArg List.head? opens) plain
  · rfl

/-- **What is ignored below a root**: what is named, and what is hidden. -/
theorem isIgnored_iff (under : path.below? root = some below) :
    isIgnored patterns root path = true ↔
      (∃ pattern ∈ patterns, isNamed pattern below = true) ∨
        ∃ c ∈ below.components, isHidden c = true := by
  rw [isIgnored, under, Bool.or_eq_true, List.any_eq_true, List.any_eq_true]

/-- What lies outside of the root is ignored. -/
theorem isIgnored_outside (outside : path.startsWith root = false) :
    isIgnored patterns root path = true := by
  rw [isIgnored, Path.below?_eq_none_iff.mpr outside]

/-- What a root is called, and what it lies in, makes no difference. -/
theorem isIgnored_join (root other : Path) {p : Path} (relative : p.isAbsolute = false)
    (undotted : Path.Component.current ∉ p.components) :
    isIgnored patterns root (root.join p) = isIgnored patterns other (other.join p) := by
  rw [isIgnored, isIgnored, Path.below?_join root relative undotted,
    Path.below?_join other relative undotted]

/-- More patterns ignore more. -/
theorem isIgnored_mono {more : List String} (all : patterns ⊆ more)
    (ignored : isIgnored patterns root path = true) : isIgnored more root path = true := by
  cases under : path.below? root with
  | none => exact isIgnored_outside (Path.below?_eq_none_iff.mp under)
  | some below =>
    rcases (isIgnored_iff under).mp ignored with ⟨pattern, mem, named⟩ | hidden
    · exact (isIgnored_iff under).mpr (.inl ⟨pattern, all mem, named⟩)
    · exact (isIgnored_iff under).mpr (.inr hidden)

/-- A component that is left out by its own name: it is hidden, or a pattern without a star in front
names it. -/
def LeftOut (patterns : List String) (c : Path.Component) : Prop :=
  isHidden c = true ∨
    ∃ pattern ∈ patterns, pattern.toList.head? ≠ some '*' ∧ c.text = pattern

/-- A path with a component below the root that is left out is left out. -/
theorem isIgnored_of_leftOut {c : Path.Component} (under : path.below? root = some below)
    (mem : c ∈ below.components) (out : LeftOut patterns c) :
    isIgnored patterns root path = true := by
  refine (isIgnored_iff under).mpr ?_
  rcases out with hidden | ⟨pattern, listed, plain, named⟩
  · exact .inr ⟨c, mem, hidden⟩
  · refine .inl ⟨pattern, listed, ?_⟩
    rw [isNamed_plain plain, List.any_eq_true]
    exact ⟨c, mem, decide_eq_true named⟩

/-- A directory below the root whose last component is left out closes what is below it. -/
theorem isIgnored_of_startsWith {directory : Path} {between : List Path.Component}
    {c : Path.Component} (last : directory.components = root.components ++ between ++ [c])
    (out : LeftOut patterns c) (inside : path.startsWith directory = true) :
    isIgnored patterns root path = true := by
  obtain ⟨rest, whole⟩ := List.isPrefixOf_iff_prefix.mp inside
  cases under : path.below? root with
  | none => exact isIgnored_outside (Path.below?_eq_none_iff.mp under)
  | some below =>
    have parts := Path.components_below? under
    rw [← whole, last, List.append_assoc, List.append_assoc] at parts
    refine isIgnored_of_leftOut under (c := c) ?_ out
    rw [← List.append_cancel_left parts]
    simp

/-- What holds of a list of patterns below every root. -/
structure Local (patterns : List String) : Prop where
  /-- A relative path is watched below one root exactly if it is watched below any other. -/
  moved : ∀ root other p, p.isAbsolute = false → Path.Component.current ∉ p.components →
    isIgnored patterns root (root.join p) = isIgnored patterns other (other.join p)
  /-- Nothing outside of the root is watched. -/
  outside : ∀ root path, path.startsWith root = false → isIgnored patterns root path = true
  /-- More patterns leave out more. -/
  more : ∀ others root path, patterns ⊆ others → isIgnored patterns root path = true →
    isIgnored others root path = true
  /-- A directory below the root that is left out by its own name is left out with all below it. -/
  closed : ∀ root directory between c path,
    directory.components = root.components ++ between ++ [c] → LeftOut patterns c →
    path.startsWith directory = true → isIgnored patterns root path = true

/-- **What is watched is said of what lies below the root**, and what is left out by its own name is
left out with all below it. -/
theorem isIgnored_local (patterns : List String) : Local patterns where
  moved root other _ relative undotted := isIgnored_join root other relative undotted
  outside _ _ outside := isIgnored_outside outside
  more _ _ _ all ignored := isIgnored_mono all ignored
  closed _ _ _ _ _ last out inside := isIgnored_of_startsWith last out inside

end Watch

namespace Sample

open Watch

/-- A root whose own components are hidden, and named by a pattern. -/
def buried : Path := ⟨"/home/.cache/dist/app"⟩

/-- Below it a source is watched and a log is not, as below any other root; what stands beside it is
not watched, and nothing is in a hidden directory. -/
theorem buried_local :
    let patterns := ["dist", "*.log"]
    isIgnored patterns buried ⟨"/home/.cache/dist/app/src/a.js"⟩ = false ∧
    isIgnored patterns buried (buried.join ⟨"src//a.log"⟩) =
      isIgnored patterns ⟨""⟩ (Path.join ⟨""⟩ ⟨"src//a.log"⟩) ∧
    isIgnored patterns buried ⟨"/home/.cache/dist/apple/a.js"⟩ = true ∧
    isIgnored ("src" :: patterns) buried ⟨"/home/.cache/dist/app/a.log"⟩ = true ∧
    isIgnored patterns buried ⟨"/home/.cache/dist/app/src/.git/hooks/../a.js"⟩ = true := by
  have facts : isIgnored ["dist", "*.log"] buried ⟨"/home/.cache/dist/app/src/a.js"⟩ = false ∧
      (⟨"src//a.log"⟩ : Path).isAbsolute = false ∧
      Path.Component.current ∉ (⟨"src//a.log"⟩ : Path).components ∧
      (⟨"/home/.cache/dist/apple/a.js"⟩ : Path).startsWith buried = false ∧
      isIgnored ["dist", "*.log"] buried ⟨"/home/.cache/dist/app/a.log"⟩ = true ∧
      (⟨"/home/.cache/dist/app/src/.git/"⟩ : Path).components =
        buried.components ++ [.normal "src"] ++ [.normal ".git"] ∧
      isHidden (.normal ".git") = true ∧
      (⟨"/home/.cache/dist/app/src/.git/hooks/../a.js"⟩ : Path).startsWith
        ⟨"/home/.cache/dist/app/src/.git/"⟩ = true := by
    decide +kernel
  obtain ⟨watched, relative, undotted, beside, log, last, hidden, inside⟩ := facts
  have holds := isIgnored_local ["dist", "*.log"]
  exact ⟨watched, holds.moved _ _ _ relative undotted, holds.outside _ _ beside,
    holds.more _ _ _ (List.subset_cons_self _ _) log, holds.closed _ _ _ _ _ last (.inl hidden) inside⟩

end Sample

end HotReload
