import HotReload.Proofs.Resolver.Veil

/-!
# How a tree looks

What a tree is asked leaves no trace in its answers, so it looks the same afterwards.  It looks
different only where it is changed by hand, and the same change makes the same of trees that look
the same.

* `Resolver.Keeps`: what a resolver is asked does not change how its state looks.
* `Tree.resolver_keeps`: what a tree is asked does not change how it looks.
* `Tree.Edit`: the ways in which a tree is changed by hand.
* `Tree.Edit.shown_apply`: trees that look the same look the same after the same edit.
-/

namespace HotReload

/-- What a resolver is asked does not change how its state looks. -/
structure Resolver.Keeps {σ α : Type} (r : Resolver σ) (look : σ → α) : Prop where
  module (path : Path) (st : σ) : look (r.module path st).2 = look st
  dependencies (lookup : Lookup) (st : σ) : look (r.dependencies lookup st).2 = look st
  order (job : BuildJob) (st : σ) : look (r.order job st) = look st
  deliver (job : BuildJob) (st : σ) : look (r.deliver job st).2 = look st

namespace Resolver.Keeps

variable {σ α : Type} {r : Resolver σ} {look : σ → α}

theorem answer (k : r.Keeps look) {β : Type} (q : Query β) (st : σ) :
    look (q.answer r st).2 = look st := by
  cases q with
  | module path next => exact k.module path st
  | dependencies lookup next => exact k.dependencies lookup st

theorem run (k : r.Keeps look) (fuel : Nat) (s : Search) (st : σ) :
    look (s.run r fuel st).2 = look st := by
  induction fuel generalizing s st with
  | zero => rfl
  | succ fuel ih =>
    have kept := k.answer s.next st
    unfold Search.run
    generalize s.next.answer r st = next at kept ⊢
    obtain ⟨e | found | g, st₁⟩ := next
    · exact kept
    · exact (ih found st₁).trans kept
    · exact kept

theorem discover (k : r.Keeps look) (platform : String) (entry : Path) (st : σ) :
    look (Search.discover r platform entry st).2 = look st := by
  have kept := k.run (r.bound st) (Search.start platform entry) st
  unfold Search.discover
  generalize (Search.start platform entry).run r (r.bound st) st = found at kept ⊢
  obtain ⟨_ | x, st₁⟩ := found <;> exact kept

end Resolver.Keeps

namespace Tree

theorem resolver_keeps : Tree.resolver.Keeps Tree.shown where
  module _ _ := rfl
  dependencies lookup t := shown_askDependencies lookup t
  order _ _ := rfl
  deliver job t := shown_deliver job t

/-! ### Changes by hand -/

/-- A change of a tree by hand. -/
inductive Edit where
  | add (path : Path) (kind : ModuleKind) (dependencies : List Path) (code : String)
  | remove (path : Path)
  | setDependencies (path : Path) (dependencies : List Path)
  | setCode (path : Path) (code : String)
  | fail (path : Path) (fault : ResolveFault)
  | clearFault (path : Path)
  | failAt (stage : Stage) (path : Path) (fault : ResolveFault)
  | clearFaultAt (stage : Stage) (path : Path)
  | setPlatformDependencies (platform : String) (path : Path) (dependencies : List Path)
  /-- Builds come out empty from now on, or do not. -/
  | buildEmpty (on : Bool)
  /-- Builds are held back. -/
  | hold
  | release

/-- The tree after an edit. -/
def Edit.apply (t : Tree) : Edit → Tree
  | .add path kind dependencies code => t.add path kind dependencies code
  | .remove path => t.remove path
  | .setDependencies path dependencies => t.setDependencies path dependencies
  | .setCode path code => t.setCode path code
  | .fail path fault => t.fail path fault
  | .clearFault path => t.clearFault path
  | .failAt stage path fault => t.failAt stage path fault
  | .clearFaultAt stage path => t.clearFaultAt stage path
  | .setPlatformDependencies platform path dependencies =>
    t.setPlatformDependencies platform path dependencies
  | .buildEmpty on => { t with buildsEmpty := on }
  | .hold => { t with isHeld := true }
  | .release => { t with isHeld := false }

section VeilAll

variable {κ : Type} [BEq κ]

omit [BEq κ] in
theorem veilAll_veilAll (m : List (κ × ResolveFault)) : veilAll (veilAll m) = veilAll m := by
  have veil : ∀ fault : ResolveFault, fault.veil.veil = fault.veil := by
    rintro (_ | _ | _ | _) <;> rfl
  simp [veilAll, Function.comp_def, veil]

theorem veilAll_insert (m : List (κ × ResolveFault)) (k : κ) (fault : ResolveFault) :
    veilAll (Assoc.insert (veilAll m) k fault) = veilAll (Assoc.insert m k fault) := by
  have insert : ∀ m : List (κ × ResolveFault), veilAll (Assoc.insert m k fault) =
      Assoc.insert (veilAll m) k fault.veil := fun m =>
    Assoc.map_insert ResolveFault.veil (fun _ _ => rfl) m k fault
  rw [insert, insert, veilAll_veilAll]

theorem veilAll_erase (m : List (κ × ResolveFault)) (k : κ) :
    veilAll (Assoc.erase (veilAll m) k) = veilAll (Assoc.erase m k) := by
  have erase : ∀ m : List (κ × ResolveFault), veilAll (Assoc.erase m k) =
      Assoc.erase (veilAll m) k := by
    intro m
    rw [veilAll, veilAll, Assoc.erase, Assoc.erase, List.filter_map]
    rfl
  rw [erase, erase, veilAll_veilAll]

end VeilAll

/-- An edit makes the same of a tree and of how it looks. -/
theorem Edit.shown_apply_shown (e : Edit) (t : Tree) :
    (e.apply t.shown).shown = (e.apply t).shown := by
  cases e with
  | add path kind dependencies code =>
    simp only [apply, Tree.add, shown_files]
    split <;> simp only [shown, veilAll_veilAll]
  | fail path fault => simp only [apply, Tree.fail, shown, veilAll_veilAll, veilAll_insert]
  | clearFault path => simp only [apply, Tree.clearFault, shown, veilAll_veilAll, veilAll_erase]
  | failAt stage path fault =>
    simp only [apply, Tree.failAt, shown, veilAll_veilAll, veilAll_insert]
  | clearFaultAt stage path =>
    simp only [apply, Tree.clearFaultAt, shown, veilAll_veilAll, veilAll_erase]
  | _ =>
    simp only [apply, Tree.remove, Tree.setDependencies, Tree.setCode,
      Tree.setPlatformDependencies, shown, veilAll_veilAll]

/-- **Trees that look the same** look the same after an edit. -/
theorem Edit.shown_apply (e : Edit) {t t' : Tree} (h : t.shown = t'.shown) :
    (e.apply t).shown = (e.apply t').shown := by
  rw [← e.shown_apply_shown t, h, e.shown_apply_shown]

end Tree

end HotReload
