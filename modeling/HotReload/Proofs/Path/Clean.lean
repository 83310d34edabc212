import HotReload.Proofs.Path.Pieces
import Mathlib.Logic.Relation

/-!
# Cleaning a path is computing its normal form

What a path means without a look at any file system can be said by three rules: a `.` is left out, a
name goes with the `..` behind it, and nothing lies above the root.  Whatever the order in which the
rules are applied, they end with the same components, and those are what cleaning a path computes.

* `Component.Shortens`: one use of a rule.  `Component.Normalizes`: any number of them, up to where
  none applies.
* `Component.normalizes_iff`: there is one normal form, and one pass from the front finds it.
* `Path.components_clean`: the clean spelling of an absolute path has the normal form of its
  components.
-/

namespace HotReload.Path

namespace Component

open Relation

/-! ### Rules -/

/-- One use of a rule, anywhere in a list of components. -/
inductive Shortens : List Component → List Component → Prop where
  | current (front back : List Component) : Shortens (front ++ .current :: back) (front ++ back)
  | parent (front back : List Component) (name : String) :
      Shortens (front ++ .normal name :: .parent :: back) (front ++ back)
  /-- Nothing lies above the root. -/
  | top (front back : List Component) :
      Shortens (front ++ .root :: .parent :: back) (front ++ .root :: back)

/-- `ds` is what the rules make of `cs`, and none of them applies to it. -/
structure Normalizes (cs ds : List Component) : Prop where
  reached : ReflTransGen Shortens cs ds
  settled : ∀ es, ¬ Shortens ds es

theorem Shortens.append {cs ds : List Component} (h : Shortens cs ds) (more : List Component) :
    Shortens (cs ++ more) (ds ++ more) := by
  cases h with
  | current front back => simpa using Shortens.current front (back ++ more)
  | parent front back name => simpa using Shortens.parent front (back ++ more) name
  | top front back => simpa using Shortens.top front (back ++ more)

/-! ### One pass -/

/-- What one pass from the front makes of a list of components. -/
def cleaned (cs : List Component) : List Component := (cs.foldl cleanStep []).reverse

/-- A rule does not change what the pass computes. -/
theorem cleaned_of_shortens {cs ds : List Component} (h : Shortens cs ds) :
    cleaned cs = cleaned ds := by
  cases h <;> simp [cleaned, cleanStep]

theorem cleaned_of_reached {cs ds : List Component} (h : ReflTransGen Shortens cs ds) :
    cleaned cs = cleaned ds := by
  induction h with
  | refl => rfl
  | tail _ step ih => exact ih.trans (cleaned_of_shortens step)

/-- One more component at the end of a list that is clean. -/
theorem cleaned_append (cs : List Component) (c : Component) :
    cleaned (cs ++ [c]) = (cleanStep (cleaned cs).reverse c).reverse := by
  simp [cleaned]

/-- Where no rule applies, the pass leaves all as it is. -/
theorem cleaned_of_settled {cs : List Component} (h : ∀ ds, ¬ Shortens cs ds) :
    cleaned cs = cs := by
  induction cs using List.reverseRecOn with
  | nil => rfl
  | append_singleton cs c ih =>
    have before := ih fun ds shorter => h _ (shorter.append [c])
    rw [cleaned_append, before]
    cases c with
    | root | normal name => simp [cleanStep]
    | current => exact absurd (Shortens.current cs []) (h _)
    | parent =>
      rcases List.eq_nil_or_concat cs with rfl | ⟨front, last, rfl⟩
      · rfl
      · rw [List.concat_eq_append] at h ⊢
        -- a rule applies to the last two components, unless the pass keeps both
        cases last with
        | root => exact absurd (by simpa using Shortens.top front []) (h (front ++ [.root]))
        | normal name => exact absurd (by simpa using Shortens.parent front [] name) (h front)
        | current | parent => simp [cleanStep]

/-- The rules lead to what the pass computes. -/
theorem reached_cleaned (cs : List Component) : ReflTransGen Shortens cs (cleaned cs) := by
  induction cs using List.reverseRecOn with
  | nil => exact .refl
  | append_singleton cs c ih =>
    have before : ReflTransGen Shortens (cs ++ [c]) (cleaned cs ++ [c]) :=
      ih.lift (· ++ [c]) fun _ _ shorter => shorter.append [c]
    refine before.trans ?_
    rw [cleaned_append]
    generalize cleaned cs = ds
    cases c with
    | root | normal name =>
      simp only [cleanStep, List.reverse_cons, List.reverse_reverse]
      exact .refl
    | current =>
      simp only [cleanStep, List.reverse_reverse]
      exact .single (by simpa using Shortens.current ds [])
    | parent =>
      rcases List.eq_nil_or_concat ds with rfl | ⟨front, last, rfl⟩
      · exact .refl
      · rw [List.concat_eq_append]
        cases last with
        | root => exact .single (by simpa [cleanStep] using Shortens.top front [])
        | normal name => exact .single (by simpa [cleanStep] using Shortens.parent front [] name)
        | current | parent =>
          rw [List.reverse_append, List.reverse_singleton, List.singleton_append]
          simp only [cleanStep, List.reverse_cons, List.reverse_reverse]
          exact .refl

theorem Shortens.length_lt {cs ds : List Component} (h : Shortens cs ds) :
    ds.length < cs.length := by
  cases h with
  | current | parent | top =>
    simp only [List.length_append, List.length_cons]
    omega

theorem length_le_of_reached {cs ds : List Component} (h : ReflTransGen Shortens cs ds) :
    ds.length ≤ cs.length := by
  induction h with
  | refl => exact Nat.le_refl _
  | tail _ step ih => exact Nat.le_trans (Nat.le_of_lt step.length_lt) ih

/-- No rule applies to what the pass computes: it would compute something shorter. -/
theorem settled_cleaned (cs : List Component) : ∀ ds, ¬ Shortens (cleaned cs) ds := by
  intro ds shorter
  have same : cleaned ds = cleaned cs :=
    ((cleaned_of_reached (reached_cleaned cs)).trans (cleaned_of_shortens shorter)).symm
  have le := length_le_of_reached (reached_cleaned ds)
  have lt := shorter.length_lt
  rw [same] at le
  omega

/-- **There is one normal form,** and the pass computes it. -/
theorem normalizes_iff {cs ds : List Component} : Normalizes cs ds ↔ ds = cleaned cs := by
  constructor
  · intro h
    rw [cleaned_of_reached h.reached, cleaned_of_settled h.settled]
  · rintro rfl
    exact ⟨reached_cleaned cs, settled_cleaned cs⟩

/-! ### Absolute paths -/

/-- A name that is written as one piece. -/
def IsName (c : Component) : Prop := (∃ name, c = .normal name) ∧ c.Spelled

/-- Behind the root, the pass keeps nothing but names. -/
theorem foldl_cleanStep_names (names : List Component) {cs : List Component}
    (named : ∀ c ∈ names, c.IsName)
    (spelled : ∀ c ∈ cs, c.Spelled) :
    ∃ kept, cs.foldl cleanStep (names ++ [.root]) = kept ++ [.root] ∧ ∀ c ∈ kept, c.IsName := by
  induction cs generalizing names with
  | nil => exact ⟨names, rfl, named⟩
  | cons c cs ih =>
    have rest : ∀ d ∈ cs, d.Spelled := fun d mem => spelled d (List.mem_cons_of_mem c mem)
    have one := spelled c List.mem_cons_self
    rw [List.foldl_cons]
    cases c with
    | root => cases one.piece
    | current => cases one.piece
    | normal name =>
      refine ih (.normal name :: names) (fun d mem => ?_) rest
      rcases List.mem_cons.mp mem with rfl | mem
      · exact ⟨⟨name, rfl⟩, one⟩
      · exact named d mem
    | parent =>
      cases names with
      | nil => exact ih [] named rest
      | cons last names =>
        obtain ⟨⟨name, rfl⟩, -⟩ := named last List.mem_cons_self
        exact ih names (fun d mem => named d (List.mem_cons_of_mem _ mem)) rest

/-- What is left of the components of an absolute path: the root, and names under it. -/
theorem cleaned_root {cs : List Component} (spelled : ∀ c ∈ cs, c.Spelled) :
    ∃ names, cleaned (.root :: cs) = .root :: names ∧ ∀ c ∈ names, c.IsName := by
  obtain ⟨kept, pass, named⟩ := foldl_cleanStep_names [] nofun spelled
  refine ⟨kept.reverse, ?_, fun c mem => named c (List.mem_reverse.mp mem)⟩
  have first : (Component.root :: cs).foldl cleanStep [] = cs.foldl cleanStep ([] ++ [.root]) := rfl
  rw [cleaned, first, pass, List.reverse_append, List.reverse_singleton, List.singleton_append]

end Component

/-- **The clean spelling** of an absolute path has the normal form of its components: the root, and
names under it. -/
theorem components_clean {p : Path} (absolute : p.isAbsolute = true) :
    ∃ names, p.clean.components = .root :: names ∧ (∀ c ∈ names, c.IsName) ∧
      Component.Normalizes p.components p.clean.components := by
  have spelled : ∀ c ∈ p.body, c.Spelled := fun c mem => spelled_of_mem_body mem
  obtain ⟨names, whole, named⟩ := Component.cleaned_root spelled
  rw [← components_of_absolute absolute] at whole
  have spelt : p.clean = ofComponents (.root :: names) := by
    have : p.cleanComponents = .root :: names := whole
    rw [clean, this]
  have same := components_ofComponents fun c mem => (named c mem).2
  refine ⟨names, spelt ▸ same, named, Component.normalizes_iff.mpr ?_⟩
  rw [spelt, same, whole]

end HotReload.Path
