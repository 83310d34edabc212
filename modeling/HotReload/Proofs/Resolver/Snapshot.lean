import HotReload.Proofs.Assoc
import HotReload.Resolver.Tree

/-!
# Snapshots

A snapshot is what a resolver says of the files as they stand at one moment.  It does not depend on
how a path is spelled.  A resolver shows a snapshot from a state on where all that it will ever be
asked is answered so: it may count and record what it is asked, but the files stay as they are.

* `Snapshot.resolver`: the resolver that has nothing but a snapshot.
* `Resolver.ShowsFrom`: from a state on, a resolver shows a snapshot.
* `Tree.showsFrom`: a tree that is not changed shows its snapshot.
-/

namespace HotReload

/-- What a resolver says of the files at one moment. -/
structure Snapshot where
  module : Path → Except ResolveFault Module
  dependencies : Lookup → Except ResolveFault (List Path)
  /-- The bound on the questions of a discovery. -/
  bound : Nat
  /-- A module has the path at which it is found. -/
  path_of_module {p : Path} {m : Module} : module p = .ok m → (m.path == p) = true
  /-- Two spellings of a path stand for one file. -/
  module_congr {p q : Path} {m : Module} : (p == q) = true → module p = .ok m →
    ∃ m', module q = .ok m' ∧ m'.id = m.id ∧ m'.kind = m.kind
  dependencies_congr {platform : String} {p q entry : Path} {deps : List Path} : (p == q) = true →
    dependencies ⟨platform, p, entry⟩ = .ok deps →
    ∃ deps', dependencies ⟨platform, q, entry⟩ = .ok deps' ∧ (deps' == deps) = true

namespace Snapshot

/-- The resolver that has nothing but a snapshot. -/
def resolver (v : Snapshot) : Resolver Unit where
  module p _ := (v.module p, ())
  dependencies lookup _ := (v.dependencies lookup, ())
  order _ _ := ()
  deliver _ _ := (none, ())
  bound _ := v.bound

/-- Files that are in both snapshots keep their number and their kind. -/
def Keeps (v v' : Snapshot) : Prop :=
  ∀ {p : Path} {m m' : Module}, v.module p = .ok m → v'.module p = .ok m' →
    m'.id = m.id ∧ m'.kind = m.kind

end Snapshot

/-! ### Resolvers that show a snapshot -/

/-- In some states a resolver answers as a snapshot does, and stays in them. -/
structure Resolver.Shows {σ : Type} (r : Resolver σ) (v : Snapshot) (At : σ → Prop) : Prop where
  module {st : σ} (h : At st) (p : Path) : (r.module p st).1 = v.module p ∧ At (r.module p st).2
  dependencies {st : σ} (h : At st) (lookup : Lookup) :
    (r.dependencies lookup st).1 = v.dependencies lookup ∧ At (r.dependencies lookup st).2
  bound {st : σ} (h : At st) : r.bound st = v.bound

/-- From a state on, a resolver shows a snapshot. -/
def Resolver.ShowsFrom {σ : Type} (r : Resolver σ) (st : σ) (v : Snapshot) : Prop :=
  ∃ At, r.Shows v At ∧ At st

theorem Resolver.ShowsFrom.bound {σ : Type} {r : Resolver σ} {st : σ} {v : Snapshot}
    (h : r.ShowsFrom st v) : r.bound st = v.bound := by
  obtain ⟨At, shows_, hst⟩ := h
  exact shows_.bound hst

/-- **A question is answered as the snapshot answers it.** -/
theorem Query.answer_of_showsFrom {σ α : Type} {r : Resolver σ} {st : σ} {v : Snapshot}
    (h : r.ShowsFrom st v) (q : Query α) :
    (q.answer r st).1 = (q.answer v.resolver ()).1 ∧ r.ShowsFrom (q.answer r st).2 v := by
  obtain ⟨At, shows_, hst⟩ := h
  cases q with
  | module p next =>
    obtain ⟨hanswer, hst'⟩ := shows_.module hst p
    exact ⟨congrArg next hanswer, At, shows_, hst'⟩
  | dependencies lookup next =>
    obtain ⟨hanswer, hst'⟩ := shows_.dependencies hst lookup
    exact ⟨congrArg next hanswer, At, shows_, hst'⟩

/-! ### Trees -/

namespace Tree

theorem askModule_ok_iff {t : Tree} {p : Path} {m : Module} :
    (askModule p t).1 = .ok m ↔
      Assoc.get? t.stageFaults (Stage.module, p) = none ∧
      ∃ file, Assoc.get? t.files p = some file ∧ m = ⟨file.id, p, file.kind⟩ := by
  cases hs : Assoc.get? t.stageFaults (Stage.module, p) with
  | some fault => simp [askModule, hs]
  | none => cases hf : Assoc.get? t.files p <;> simp [askModule, moduleOf, hs, hf, eq_comm]

theorem askDependencies_ok_iff {t : Tree} {lookup : Lookup} {deps : List Path} :
    (askDependencies lookup t).1 = .ok deps ↔
      Assoc.get? t.stageFaults (Stage.dependencies, lookup.file) = none ∧
      Assoc.get? t.faults lookup.file = none ∧
      ∃ file, Assoc.get? t.files lookup.file = some file ∧
        (Assoc.get? t.platformDependencies (lookup.platform, lookup.file)).getD file.dependencies =
          deps := by
  cases hs : Assoc.get? t.stageFaults (Stage.dependencies, lookup.file) with
  | some fault => simp [askDependencies, hs]
  | none =>
    cases hp : Assoc.get? t.faults lookup.file with
    | some fault => simp [askDependencies, dependenciesOf, Except.map, hs, hp]
    | none =>
      cases hf : Assoc.get? t.files lookup.file <;>
        simp [askDependencies, dependenciesOf, Except.map, hs, hp, hf]

theorem get?_pair_congr {κ α : Type} [BEq κ] [EquivBEq κ] (m : List ((κ × Path) × α)) (k : κ)
    {p q : Path} (h : (p == q) = true) : Assoc.get? m (k, p) = Assoc.get? m (k, q) :=
  Assoc.get?_congr (Bool.and_eq_true_iff.mpr ⟨BEq.rfl, h⟩)

/-- What a tree says of its files. -/
def snapshot (t : Tree) : Snapshot where
  module p := (askModule p t).1
  dependencies lookup := (askDependencies lookup t).1
  bound := t.bound
  path_of_module h := by
    obtain ⟨-, file, -, rfl⟩ := askModule_ok_iff.mp h
    exact BEq.rfl
  module_congr {p q m} hpq h := by
    obtain ⟨unfailed, file, hfile, rfl⟩ := askModule_ok_iff.mp h
    rw [get?_pair_congr _ _ hpq] at unfailed
    rw [Assoc.get?_congr hpq] at hfile
    exact ⟨_, askModule_ok_iff.mpr ⟨unfailed, file, hfile, rfl⟩, rfl, rfl⟩
  dependencies_congr {platform p q entry deps} hpq h := by
    obtain ⟨unfailed, sound, file, hfile, hdeps⟩ := askDependencies_ok_iff.mp h
    rw [get?_pair_congr _ _ hpq] at unfailed hdeps
    rw [Assoc.get?_congr hpq] at sound hfile
    exact ⟨deps, askDependencies_ok_iff.mpr ⟨unfailed, sound, file, hfile, hdeps⟩, BEq.rfl⟩

/-- The files and faults of two trees are the same. -/
structure SameFiles (t t' : Tree) : Prop where
  files : t'.files = t.files
  faults : t'.faults = t.faults
  stageFaults : t'.stageFaults = t.stageFaults
  platformDependencies : t'.platformDependencies = t.platformDependencies

/-- **A tree shows its snapshot.**  All that it is asked leaves its files as they are. -/
theorem showsFrom (t : Tree) : Tree.resolver.ShowsFrom t t.snapshot := by
  refine ⟨SameFiles t, ⟨?_, ?_, ?_⟩, rfl, rfl, rfl, rfl⟩
  · intro t' same p
    refine ⟨?_, same.files, same.faults, same.stageFaults, same.platformDependencies⟩
    simp only [snapshot, resolver, askModule, moduleOf, same.stageFaults, same.files]
  · intro t' same lookup
    have answer : (askDependencies lookup t').1 = (askDependencies lookup t).1 := by
      simp only [askDependencies, dependenciesOf, same.stageFaults, same.faults, same.files,
        same.platformDependencies]
      split <;> rfl
    refine ⟨answer, ?_⟩
    show SameFiles t (askDependencies lookup t').2
    simp only [askDependencies]
    split <;> exact ⟨same.files, same.faults, same.stageFaults, same.platformDependencies⟩
  · intro t' same
    show 2 * t'.files.length + 2 = 2 * t.files.length + 2
    rw [same.files]

/-- Files that two trees have in common keep their number and kind, so do their modules. -/
theorem keeps {t t' : Tree}
    (h : ∀ e ∈ t.files, ∀ e' ∈ t'.files, (e.1 == e'.1) = true →
      e'.2.id = e.2.id ∧ e'.2.kind = e.2.kind) :
    t.snapshot.Keeps t'.snapshot := by
  intro p m m' hm hm'
  obtain ⟨-, file, hfile, rfl⟩ := askModule_ok_iff.mp hm
  obtain ⟨-, file', hfile', rfl⟩ := askModule_ok_iff.mp hm'
  obtain ⟨k, hk, hkp⟩ := Assoc.mem_of_get? hfile
  obtain ⟨k', hk', hkp'⟩ := Assoc.mem_of_get? hfile'
  exact h (k, file) hk (k', file') hk' (BEq.trans hkp (BEq.symm hkp'))

end Tree

end HotReload
