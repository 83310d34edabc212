import HotReload.Proofs.Graph.BreadthFirst
import HotReload.Proofs.Resolver.Snapshot
import HotReload.Proofs.Session.Cycle

/-!
# Layouts

A layout says of the files what a discovery has to know of them while they stay as they are: which
kind of module is at a path, and what a file imports.  The numbers of modules are left out, since a
resolver may give a number when it first comes by a file.

* `Layout.look`: what is learnt of a path, or the first fault that is met on the way.
* `Layout.imports`: what a path imports, as far as this can be learnt.
* `Layout.questions`: the questions that are asked about a path.
* `Resolver.DepictsFrom`: from a state on, a resolver answers by a layout.
* `Search.fits_hears`: so do all answers that a discovery hears.
-/

namespace HotReload

/-- The files as they are at one moment. -/
structure Layout where
  kind : Path → Except ResolveFault ModuleKind
  dependencies : Lookup → Except ResolveFault (List Path)
  /-- Two spellings of a path stand for one file. -/
  kind_congr {p q : Path} {k : ModuleKind} : (p == q) = true → kind p = .ok k → kind q = .ok k
  dependencies_congr {platform : String} {p q entry : Path} {deps : List Path} : (p == q) = true →
    dependencies ⟨platform, p, entry⟩ = .ok deps →
    ∃ deps', dependencies ⟨platform, q, entry⟩ = .ok deps' ∧ (deps' == deps) = true

namespace Layout

variable (l : Layout) (platform : String) (entry : Path)

/-- What a path imports, or the fault of the first question about it that fails.  Nothing is
imported by data and assets, and they are not asked for it. -/
def look (p : Path) : Except ResolveFault (List Path) :=
  match l.kind p with
  | .error e => .error e
  | .ok .source => l.dependencies ⟨platform, p, entry⟩
  | .ok _ => .ok []

/-- What a path imports; nothing where this cannot be learnt. -/
def imports (p : Path) : List Path := (l.look platform entry p).toOption.getD []

/-- The questions that are asked about a path: which module is there, and what it imports where it
is source. -/
def questions (p : Path) : List Call :=
  match l.kind p with
  | .ok .source => [.module p, .dependencies ⟨platform, p, entry⟩]
  | _ => [.module p]

variable {l platform entry}

theorem imports_of_look {p : Path} {deps : List Path} (h : l.look platform entry p = .ok deps) :
    l.imports platform entry p = deps := by
  rw [imports, h]
  rfl

/-- What can be learnt of a path can be learnt of it in any spelling. -/
theorem look_congr {p q : Path} {deps : List Path} (same : (p == q) = true)
    (h : l.look platform entry p = .ok deps) :
    ∃ deps', l.look platform entry q = .ok deps' ∧ (deps' == deps) = true := by
  unfold look at h ⊢
  cases kind : l.kind p with
  | error e =>
    rw [kind] at h
    cases h
  | ok k =>
    rw [kind] at h
    rw [l.kind_congr same kind]
    cases k with
    | source => exact l.dependencies_congr same h
    | json | asset => exact ⟨[], rfl, by rw [← Except.ok.inj h]; rfl⟩

/-- What a path imports does not depend on its spelling. -/
theorem spelled_imports : Spelled (l.imports platform entry) := by
  intro p q same
  cases found : l.look platform entry p with
  | ok deps =>
    obtain ⟨deps', found', alike⟩ := look_congr same found
    rw [imports_of_look found, imports_of_look found', Path.beq_iff_meanings.mp alike]
  | error e =>
    cases found' : l.look platform entry q with
    | error e' => rw [imports, imports, found, found']; rfl
    | ok deps =>
      obtain ⟨deps', again, -⟩ := look_congr (BEq.symm same) found'
      rw [found] at again
      cases again

end Layout

/-- The layout of a snapshot. -/
def Snapshot.layout (v : Snapshot) : Layout where
  kind p := (v.module p).map (·.kind)
  dependencies := v.dependencies
  kind_congr {p q k} same h := by
    cases found : v.module p with
    | error e =>
      rw [found] at h
      cases h
    | ok m =>
      obtain ⟨m', found', -, kind⟩ := v.module_congr same found
      rw [found] at h
      obtain rfl : m.kind = k := Except.ok.inj h
      rw [found']
      exact congrArg Except.ok kind
  dependencies_congr := v.dependencies_congr

/-! ### Resolvers that answer by a layout -/

/-- In some states a resolver answers by a layout, and stays in them.  A module has the path at
which it is found. -/
structure Resolver.Depicts {σ : Type} (r : Resolver σ) (l : Layout) (At : σ → Prop) : Prop where
  module {st : σ} (h : At st) (p : Path) :
    (r.module p st).1.map (·.kind) = l.kind p ∧ At (r.module p st).2
  named {st : σ} (h : At st) {p : Path} {m : Module} :
    (r.module p st).1 = .ok m → (m.path == p) = true
  dependencies {st : σ} (h : At st) (lookup : Lookup) :
    (r.dependencies lookup st).1 = l.dependencies lookup ∧ At (r.dependencies lookup st).2

/-- From a state on, a resolver answers by a layout. -/
def Resolver.DepictsFrom {σ : Type} (r : Resolver σ) (st : σ) (l : Layout) : Prop :=
  ∃ At, r.Depicts l At ∧ At st

/-- A resolver that shows a snapshot answers by its layout. -/
theorem Resolver.ShowsFrom.depicts {σ : Type} {r : Resolver σ} {st : σ} {v : Snapshot}
    (h : r.ShowsFrom st v) : r.DepictsFrom st v.layout := by
  obtain ⟨At, shows_, here⟩ := h
  refine ⟨At, ⟨fun {st} h p => ⟨?_, (shows_.module h p).2⟩, fun {st} h {p m} found => ?_,
    fun {st} h => shows_.dependencies h⟩, here⟩
  · rw [(shows_.module h p).1]
    rfl
  · rw [(shows_.module h p).1] at found
    exact v.path_of_module found

/-- The question that an answer is to. -/
def Answer.call : Answer → Call
  | .module path _ => .module path
  | .dependencies lookup _ => .dependencies lookup
  | .build job _ => .build job

/-- An answer is that of a layout, where it is to a lookup. -/
def Answer.Fits (l : Layout) : Answer → Prop
  | .module path answer =>
    answer.map (·.kind) = l.kind path ∧ ∀ m, answer = .ok m → (m.path == path) = true
  | .dependencies lookup answer => answer = l.dependencies lookup
  | .build .. => True

theorem Query.fits_reply {σ α : Type} {r : Resolver σ} {l : Layout} {At : σ → Prop} {st : σ}
    (h : r.Depicts l At) (here : At st) (q : Query α) :
    (q.reply r st).Fits l ∧ At (q.answer r st).2 := by
  cases q with
  | module path next =>
    exact ⟨⟨(h.module here path).1, fun _ => h.named here⟩, (h.module here path).2⟩
  | dependencies lookup next => exact h.dependencies here lookup

/-- **All that a discovery hears** is what the layout says. -/
theorem Search.fits_hears {σ : Type} {r : Resolver σ} {st : σ} {l : Layout}
    (h : r.DepictsFrom st l) (fuel : Nat) (s : Search) : ∀ a ∈ s.hears r fuel st, a.Fits l := by
  obtain ⟨At, depicts, here⟩ := h
  induction fuel generalizing s st with
  | zero => exact fun a mem => absurd mem List.not_mem_nil
  | succ fuel ih =>
    intro a mem
    obtain ⟨now, later⟩ := Query.fits_reply depicts here s.next
    rw [hears] at mem
    rcases List.mem_cons.mp mem with rfl | mem
    · exact now
    · generalize s.next.answer r st = next at later mem
      obtain ⟨e | s' | g, st'⟩ := next
      · cases mem
      · exact ih s' later a mem
      · cases mem

end HotReload
