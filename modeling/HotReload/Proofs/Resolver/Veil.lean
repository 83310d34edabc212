import HotReload.Graph.Search
import HotReload.Proofs.Assoc
import HotReload.Resolver.Tree

/-!
# Two resolvers that answer alike

The text of an internal fault is for the server's log alone.  Two resolvers match where in related
states they answer alike, but for the texts of internal faults; what is asked of both comes to the
same then.

* `ResolveFault.veil`: a fault without the text of an internal one.
* `Resolver.Matches`: two resolvers answer alike.
* `Resolver.Matches.answer`, `Resolver.Matches.discover`: a question, and a discovery, at both.
* `Tree.resolver_matches`: trees match that differ in such texts, and in what they were asked.
-/

namespace HotReload

/-! ### Faults without their internal texts -/

/-- The fault without the text of an internal one. -/
def ResolveFault.veil : ResolveFault → ResolveFault
  | .other _ => .other ""
  | fault => fault

/-- The fault without the text of an internal one. -/
def UpdateFault.veil : UpdateFault → UpdateFault
  | .internal _ => .internal ""
  | fault => fault

theorem UpdateFault.veil_ofResolve (fault : ResolveFault) :
    (ofResolve fault).veil = ofResolve fault.veil := by
  cases fault <;> rfl

theorem UpdateFault.isEntryLost_veil (fault : UpdateFault) :
    fault.veil.isEntryLost = fault.isEntryLost := by
  cases fault <;> rfl

/-- The answer without the text of an internal fault. -/
def veiled {α : Type} (answer : Except ResolveFault α) : Except ResolveFault α :=
  answer.mapError ResolveFault.veil

theorem veiled_error {α : Type} (e : ResolveFault) :
    veiled (.error e : Except ResolveFault α) = .error e.veil := rfl

theorem veiled_ok {α : Type} (a : α) : veiled (.ok a) = .ok a := rfl

/-- Two answers that are alike are two faults that are alike, or they are the same. -/
theorem veiled_eq_iff {α : Type} {x y : Except ResolveFault α} :
    veiled x = veiled y ↔
      (∃ e e', x = .error e ∧ y = .error e' ∧ e.veil = e'.veil) ∨ ∃ a, x = .ok a ∧ y = .ok a := by
  cases x with
  | error e => cases y <;> simp [veiled_error, veiled_ok, eq_comm]
  | ok a => cases y <;> simp [veiled_error, veiled_ok, eq_comm]

theorem veiled_map {α β : Type} (f : α → β) (x : Except ResolveFault α) :
    veiled (x.map f) = (veiled x).map f := by
  cases x <;> rfl

theorem veiled_mapM {α β : Type} {f g : α → Except ResolveFault β} (h : ∀ a, veiled (f a) = g a)
    (l : List α) : veiled (l.mapM f) = l.mapM g := by
  induction l with
  | nil => rfl
  | cons a l ih =>
    rw [List.mapM_cons, List.mapM_cons, ← h a, ← ih]
    cases f a with
    | error e => rfl
    | ok b => cases l.mapM f <;> rfl

/-! ### Questions -/

/-- A question whose answer is looked at without the text of an internal fault. -/
def Query.Blind {α β : Type} (view : α → β) : Query α → Prop
  | .module _ next => ∀ answer answer', veiled answer = veiled answer' →
      view (next answer) = view (next answer')
  | .dependencies _ next => ∀ answer answer', veiled answer = veiled answer' →
      view (next answer) = view (next answer')

theorem Query.Blind.map {α β γ δ : Type} {view : α → β} {view' : γ → δ} {f : α → γ} {q : Query α}
    (h : q.Blind view) (hf : ∀ a b, view a = view b → view' (f a) = view' (f b)) :
    (q.map f).Blind view' := by
  cases q with
  | module path next => exact fun a b same => hf _ _ (h a b same)
  | dependencies lookup next => exact fun a b same => hf _ _ (h a b same)

theorem Search.next_blind (s : Search) : s.next.Blind veiled := by
  unfold Search.next
  split
  · exact fun x y same => by rw [veiled_map, same, veiled_map]
  · exact fun x y same => by rw [veiled_map, same, veiled_map]

/-! ### Two resolvers -/

/-- In related states two resolvers answer alike, but for the texts of internal faults. -/
structure Resolver.Matches {σ σ' : Type} (r : Resolver σ) (r' : Resolver σ') (R : σ → σ' → Prop) :
    Prop where
  module {st : σ} {st' : σ'} (h : R st st') (path : Path) :
    veiled (r.module path st).1 = veiled (r'.module path st').1 ∧
      R (r.module path st).2 (r'.module path st').2
  dependencies {st : σ} {st' : σ'} (h : R st st') (lookup : Lookup) :
    veiled (r.dependencies lookup st).1 = veiled (r'.dependencies lookup st').1 ∧
      R (r.dependencies lookup st).2 (r'.dependencies lookup st').2
  order {st : σ} {st' : σ'} (h : R st st') (job : BuildJob) : R (r.order job st) (r'.order job st')
  deliver {st : σ} {st' : σ'} (h : R st st') (job : BuildJob) :
    (r.deliver job st).1.map veiled = (r'.deliver job st').1.map veiled ∧
      R (r.deliver job st).2 (r'.deliver job st').2
  bound {st : σ} {st' : σ'} (h : R st st') : r.bound st = r'.bound st'

namespace Resolver.Matches

variable {σ σ' : Type} {r : Resolver σ} {r' : Resolver σ'} {R : σ → σ' → Prop} {st : σ} {st' : σ'}

/-- **A question at both resolvers** leads to what looks the same. -/
theorem answer (m : r.Matches r' R) (h : R st st') {α β : Type} {view : α → β} {q : Query α}
    (blind : q.Blind view) :
    view (q.answer r st).1 = view (q.answer r' st').1 ∧
      R (q.answer r st).2 (q.answer r' st').2 := by
  cases q with
  | module path next => exact ⟨blind _ _ (m.module h path).1, (m.module h path).2⟩
  | dependencies lookup next =>
    exact ⟨blind _ _ (m.dependencies h lookup).1, (m.dependencies h lookup).2⟩

theorem run (m : r.Matches r' R) (fuel : Nat) (s : Search) (h : R st st') :
    (s.run r fuel st).1.map veiled = (s.run r' fuel st').1.map veiled ∧
      R (s.run r fuel st).2 (s.run r' fuel st').2 := by
  induction fuel generalizing s st st' with
  | zero => exact ⟨rfl, h⟩
  | succ fuel ih =>
    obtain ⟨same, h₁⟩ := m.answer h s.next_blind
    unfold Search.run
    generalize s.next.answer r st = next at same h₁ ⊢
    generalize s.next.answer r' st' = next' at same h₁ ⊢
    obtain ⟨x, st₁⟩ := next
    obtain ⟨x', st₁'⟩ := next'
    rcases veiled_eq_iff.mp same with ⟨e, e', rfl, rfl, he⟩ | ⟨found | g, rfl, rfl⟩
    · exact ⟨congrArg (some ∘ Except.error) he, h₁⟩
    · exact ih found h₁
    · exact ⟨rfl, h₁⟩

/-- **A discovery at both resolvers.** -/
theorem discover (m : r.Matches r' R) (h : R st st') (platform : String) (entry : Path) :
    veiled (Search.discover r platform entry st).1 =
        veiled (Search.discover r' platform entry st').1 ∧
      R (Search.discover r platform entry st).2 (Search.discover r' platform entry st').2 := by
  obtain ⟨same, h₁⟩ := m.run (r.bound st) (Search.start platform entry) h
  unfold Search.discover
  rw [← m.bound h]
  generalize (Search.start platform entry).run r (r.bound st) st = found at same h₁ ⊢
  generalize (Search.start platform entry).run r' (r.bound st) st' = found' at same h₁ ⊢
  obtain ⟨_ | x, st₁⟩ := found <;> obtain ⟨_ | x', st₁'⟩ := found'
  · exact ⟨rfl, h₁⟩
  · cases same
  · cases same
  · exact ⟨Option.some.inj same, h₁⟩

end Resolver.Matches

/-! ### Trees -/

namespace Tree

/-- Planted faults without the texts of internal ones. -/
def veilAll {κ : Type} (faults : List (κ × ResolveFault)) : List (κ × ResolveFault) :=
  faults.map (Prod.map id ResolveFault.veil)

/-- What can be seen of a tree from without: it has no texts of internal faults, and no record of
what it was asked. -/
def shown (t : Tree) : Tree :=
  { t with
    faults := veilAll t.faults
    stageFaults := veilAll t.stageFaults
    lookups := []
    builds := 0
    calls := [] }

@[simp] theorem shown_files (t : Tree) : t.shown.files = t.files := rfl

theorem stageFault_shown (t : Tree) (key : Stage × Path) :
    Assoc.get? t.shown.stageFaults key = (Assoc.get? t.stageFaults key).map ResolveFault.veil :=
  Assoc.get?_map _ t.stageFaults key

theorem fault_shown (t : Tree) (path : Path) :
    Assoc.get? t.shown.faults path = (Assoc.get? t.faults path).map ResolveFault.veil :=
  Assoc.get?_map _ t.faults path

theorem veiled_askModule (path : Path) (t : Tree) :
    veiled (askModule path t).1 = (askModule path t.shown).1 := by
  simp only [askModule, stageFault_shown]
  cases Assoc.get? t.stageFaults (Stage.module, path) with
  | some fault => rfl
  | none =>
    show veiled (t.moduleOf path) = t.moduleOf path
    unfold moduleOf
    split <;> rfl

theorem veiled_askDependencies (lookup : Lookup) (t : Tree) :
    veiled (askDependencies lookup t).1 = (askDependencies lookup t.shown).1 := by
  have own : veiled (t.dependenciesOf lookup.file) = t.shown.dependenciesOf lookup.file := by
    simp only [dependenciesOf, fault_shown, shown_files]
    cases Assoc.get? t.faults lookup.file with
    | some fault => rfl
    | none => cases Assoc.get? t.files lookup.file <;> rfl
  simp only [askDependencies, stageFault_shown]
  cases Assoc.get? t.stageFaults (Stage.dependencies, lookup.file) with
  | some fault => rfl
  | none => exact (veiled_map _ _).trans (congrArg (Except.map _) own)

theorem shown_askDependencies (lookup : Lookup) (t : Tree) :
    (askDependencies lookup t).2.shown = t.shown := by
  simp only [askDependencies]
  split <;> rfl

theorem veiled_deliver (job : BuildJob) (t : Tree) :
    (deliver job t).1.map veiled = (deliver job t.shown).1 := by
  have built : ∀ m, veiled (t.buildModule job m) = t.shown.buildModule job m := by
    intro m
    simp only [buildModule, fault_shown, shown_files]
    cases Assoc.get? t.faults m.path with
    | some fault => rfl
    | none => cases Assoc.get? t.files m.path <;> rfl
  -- which module has a planted fault does not depend on the texts
  have planted : (job.modules.findSome? fun m => Assoc.get? t.shown.stageFaults (.build, m.path)) =
      (job.modules.findSome? fun m => Assoc.get? t.stageFaults (.build, m.path)).map
        ResolveFault.veil := by
    rw [List.map_findSome?]
    simp only [stageFault_shown, Function.comp_def]
  simp only [deliver, planted]
  rw [show t.shown.isHeld = t.isHeld from rfl, show t.shown.buildsEmpty = t.buildsEmpty from rfl]
  split
  · rfl
  · cases job.modules.findSome? fun m => Assoc.get? t.stageFaults (.build, m.path) with
    | some fault => rfl
    | none =>
      simp only [Option.map_none]
      split
      · rfl
      · exact congrArg some (veiled_mapM built job.modules)

theorem shown_deliver (job : BuildJob) (t : Tree) : (deliver job t).2.shown = t.shown := by
  simp only [deliver]
  split
  · rfl
  · split
    · rfl
    · split <;> rfl

/-- **Trees that look the same match.** -/
theorem resolver_matches :
    Tree.resolver.Matches Tree.resolver (fun t t' => t.shown = t'.shown) where
  module {t t'} h path := by
    refine ⟨?_, h⟩
    show veiled (askModule path t).1 = veiled (askModule path t').1
    rw [veiled_askModule, veiled_askModule, h]
  dependencies {t t'} h lookup := by
    constructor
    · show veiled (askDependencies lookup t).1 = veiled (askDependencies lookup t').1
      rw [veiled_askDependencies, veiled_askDependencies, h]
    · exact (shown_askDependencies lookup t).trans (h.trans (shown_askDependencies lookup t').symm)
  order h _ := h
  deliver {t t'} h job := by
    constructor
    · show (deliver job t).1.map veiled = (deliver job t').1.map veiled
      rw [veiled_deliver, veiled_deliver, h]
    · exact (shown_deliver job t).trans (h.trans (shown_deliver job t').symm)
  bound {t t'} h := by
    show t.shown.bound = t'.shown.bound
    rw [h]

end Tree

end HotReload
