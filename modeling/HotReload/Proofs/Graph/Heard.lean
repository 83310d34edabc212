import HotReload.Proofs.Graph.Discovery
import HotReload.Proofs.Session.Cycle
import Mathlib.Data.List.Forall2

/-!
# Discoveries by what they hear

All that a discovery sees of a resolver are its answers: the files can change between two questions,
and any question can fail.  `Search.Answered` is a discovery with the answers that it heard, whatever
resolver gave them.

* `Query.Leads`: what a question leads to with an answer.
* `Search.Reaches`, `Search.Answered`: how far a discovery comes with some answers, and its end.
* `Search.answered_of_run`: what `Search.run` finds, it finds with the answers that it hears.
* `Search.Gathers`: a discovery that succeeds takes in one file after the other, each as it was told.
* `Search.Gathers.paired`: modules and dependencies are listed side by side.
-/

namespace HotReload

/-! ### Questions and answers -/

/-- What a question leads to with an answer. -/
inductive Query.Leads {α : Type} : Query α → Answer → α → Prop where
  | module (path : Path) (next : Except ResolveFault Module → α)
      (answer : Except ResolveFault Module) :
      Leads (.module path next) (.module path answer) (next answer)
  | dependencies (lookup : Lookup) (next : Except ResolveFault (List Path) → α)
      (answer : Except ResolveFault (List Path)) :
      Leads (.dependencies lookup next) (.dependencies lookup answer) (next answer)

namespace Query

variable {σ α : Type}

theorem leads_reply (r : Resolver σ) (st : σ) (q : Query α) :
    q.Leads (q.reply r st) (q.answer r st).1 := by
  cases q with
  | module path next => exact .module path next _
  | dependencies lookup next => exact .dependencies lookup next _

end Query

namespace Search

/-! ### Discoveries -/

/-- A discovery with the answers that it hears up to its end. -/
inductive Answered : Search → List Answer → Except ResolveFault Graph → Prop where
  | fault {s : Search} {a : Answer} {e : ResolveFault} (h : s.next.Leads a (.error e)) :
      Answered s [a] (.error e)
  | found {s : Search} {a : Answer} {g : Graph} (h : s.next.Leads a (.ok (.inr g))) :
      Answered s [a] (.ok g)
  | more {s s' : Search} {a : Answer} {heard : List Answer} {result : Except ResolveFault Graph}
      (h : s.next.Leads a (.ok (.inl s'))) (rest : Answered s' heard result) :
      Answered s (a :: heard) result

/-- How far a discovery has come with the answers that it heard. -/
inductive Reaches (s : Search) : List Answer → Search → Prop where
  | start : Reaches s [] s
  | more {heard : List Answer} {s' s'' : Search} {a : Answer} (t : Reaches s heard s')
      (h : s'.next.Leads a (.ok (.inl s''))) : Reaches s (heard ++ [a]) s''

theorem Reaches.answered {s s' : Search} {heard more : List Answer}
    {result : Except ResolveFault Graph} (t : Reaches s heard s') (h : Answered s' more result) :
    Answered s (heard ++ more) result := by
  induction t generalizing more with
  | start => exact h
  | more _ hs ih =>
    rw [List.append_assoc]
    exact ih (.more hs h)

/-- What a discovery hears from a resolver. -/
def hears {σ : Type} (r : Resolver σ) : Nat → Search → σ → List Answer
  | 0, _, _ => []
  | fuel + 1, s, st =>
    s.next.reply r st ::
      match s.next.answer r st with
      | (.ok (.inl s), st) => hears r fuel s st
      | _ => []

/-- **What is found, is found with the answers that are heard.** -/
theorem answered_of_run {σ : Type} {r : Resolver σ} {fuel : Nat} {s : Search} {st : σ}
    {result : Except ResolveFault Graph} (h : (s.run r fuel st).1 = some result) :
    Answered s (s.hears r fuel st) result := by
  induction fuel generalizing s st with
  | zero => cases h
  | succ fuel ih =>
    have leads := s.next.leads_reply r st
    rw [run] at h
    rw [hears]
    generalize s.next.answer r st = asked at h leads
    obtain ⟨e | s' | g, st'⟩ := asked
    · cases h
      exact .fault leads
    · exact .more leads (ih h)
    · cases h
      exact .found leads

/-- A graph that is discovered is found with the answers that are heard. -/
theorem answered_of_discover {σ : Type} {r : Resolver σ} {platform : String} {entry : Path} {st : σ}
    {g : Graph} (h : (discover r platform entry st).1 = .ok g) :
    Answered (start platform entry) ((start platform entry).hears r (r.bound st) st) (.ok g) := by
  unfold discover at h
  split at h
  · next result st' found =>
    cases h
    exact answered_of_run (congrArg Prod.fst found)
  · cases h

/-! ### Discoveries that succeed -/

/-- What was heard of a file: the module at its path, and what it depends on. -/
structure Told (heard : List Answer) (p : Path) (m : Module) (deps : List Path) : Prop where
  module : Answer.module p (.ok m) ∈ heard
  leaf : m.isSource = false → deps = []

/-- A search that finds a graph: it takes in one file after the other. -/
inductive Gathers (heard : List Answer) : Search → Graph → Prop
  | last {s : Search} {m : Module} {deps : List Path} (told : Told heard s.path m deps)
      (h : s.waiting ++ fresh s.met deps = []) : Gathers heard s (s.grown m deps)
  | more {s s' : Search} {m : Module} {deps : List Path} {g : Graph}
      (told : Told heard s.path m deps) (f : s.Follows m deps s') (rest : Gathers heard s' g) :
      Gathers heard s g

section Gathering

variable {all heard : List Answer} {s : Search} {g : Graph}

/-- A file is taken in and the rest is gathered. -/
theorem Gathers.of_absorb {m : Module} {deps : List Path} (told : Told all s.path m deps)
    (rest : s.absorb m deps = .inr g ∨
      ∃ s', s.absorb m deps = .inl s' ∧ (s'.pending = none → Gathers all s' g)) :
    Gathers all s g := by
  rcases s.absorb_cases m deps with ⟨h, done⟩ | ⟨s', h, f⟩
  · rw [h] at rest
    rcases rest with hg | ⟨_, hs, -⟩
    · cases hg
      exact .last told done
    · cases hs
  · rw [h] at rest
    rcases rest with hg | ⟨_, hs, rest⟩
    · cases hg
    · cases hs
      exact .more told f (rest f.pending)

/-- The first question about a path. -/
theorem leads_idle {a : Answer} {led : Except ResolveFault (Search ⊕ Graph)}
    (h : s.next.Leads a led) (idle : s.pending = none) :
    ∃ answer, a = .module s.path answer ∧ led = answer.map fun m =>
      if m.isSource then .inl { s with pending := some m } else s.absorb m [] := by
  simp only [next, idle] at h
  cases h with
  | module _ _ answer => exact ⟨answer, rfl, rfl⟩

/-- The second one, where there is source. -/
theorem leads_pending {a : Answer} {led : Except ResolveFault (Search ⊕ Graph)} {m : Module}
    (h : s.next.Leads a led) (pending : s.pending = some m) :
    ∃ answer, a = .dependencies ⟨s.platform, s.path, s.entry⟩ answer ∧
      led = answer.map (s.absorb m) := by
  simp only [next, pending] at h
  cases h with
  | dependencies _ _ answer => exact ⟨answer, rfl, rfl⟩

/-- What a search does with an answer that is no fault: it asks on about a source module, or takes a
file in. -/
theorem next_leads_ok {a : Answer} {next : Search ⊕ Graph} (h : s.next.Leads a (.ok next)) :
    (∃ m, s.pending = none ∧ a = .module s.path (.ok m) ∧ m.isSource = true ∧
      next = .inl { s with pending := some m }) ∨
    (∃ m, s.pending = none ∧ a = .module s.path (.ok m) ∧ m.isSource = false ∧
      s.absorb m [] = next) ∨
    ∃ m deps, s.pending = some m ∧
      a = .dependencies ⟨s.platform, s.path, s.entry⟩ (.ok deps) ∧ s.absorb m deps = next := by
  cases pending : s.pending with
  | none =>
    obtain ⟨answer, rfl, led⟩ := leads_idle h pending
    obtain ⟨m, rfl, hm⟩ := map_eq_ok led.symm
    cases source : m.isSource with
    | true =>
      rw [source, if_pos rfl] at hm
      exact .inl ⟨m, rfl, rfl, source, hm.symm⟩
    | false =>
      rw [source] at hm
      exact .inr (.inl ⟨m, rfl, rfl, source, hm⟩)
  | some m =>
    obtain ⟨answer, rfl, led⟩ := leads_pending h pending
    obtain ⟨deps, rfl, hdeps⟩ := map_eq_ok led.symm
    exact .inr (.inr ⟨m, deps, rfl, rfl, hdeps⟩)

/-- A search gathers a graph, if it does so from the file on whose module it knows already. -/
def Gathering (all : List Answer) (s : Search) (g : Graph) : Prop :=
  match s.pending with
  | none => Gathers all s g
  | some m => m.isSource = true → .module s.path (.ok m) ∈ all →
      Gathers all { s with pending := none } g

theorem Gathering.of_leads {a : Answer} {next : Search ⊕ Graph} (h : s.next.Leads a (.ok next))
    (mem : a ∈ all)
    (rest : next = .inr g ∨ ∃ s', next = .inl s' ∧ Gathering all s' g) : Gathering all s g := by
  have idle : ∀ {m : Module} {deps : List Path}, s.absorb m deps = next →
      s.absorb m deps = .inr g ∨
        ∃ s', s.absorb m deps = .inl s' ∧ (s'.pending = none → Gathers all s' g) := by
    rintro m deps rfl
    rcases rest with found | ⟨s', more, rest⟩
    · exact .inl found
    · refine .inr ⟨s', more, fun none => ?_⟩
      rwa [Gathering, none] at rest
  rcases next_leads_ok h with ⟨m, pending, rfl, source, rfl⟩ | ⟨m, pending, rfl, leaf, absorbed⟩ |
    ⟨m, deps, pending, rfl, absorbed⟩
  · -- the search stands where it stood, with its module pending
    rcases rest with found | ⟨s', more, rest⟩
    · cases found
    · cases more
      have same : { s with pending := none } = s := by rw [← pending]
      rw [Gathering, pending]
      rw [← same]
      exact rest source mem
  · rw [Gathering, pending]
    exact .of_absorb ⟨mem, fun _ => rfl⟩ (idle absorbed)
  · rw [Gathering, pending]
    intro source known
    have told : Told all s.path m deps := ⟨known, fun leaf => by rw [source] at leaf; cases leaf⟩
    exact Gathers.of_absorb (s := { s with pending := none }) told (idle absorbed)

/-- **A discovery that succeeds** gathers its graph, also where the module of the next file is known
already. -/
theorem Answered.gathering {result : Except ResolveFault Graph} (h : Answered s heard result)
    (ok : result = .ok g) (sub : heard ⊆ all) : Gathering all s g := by
  induction h with
  | fault => cases ok
  | found h =>
    cases ok
    exact .of_leads h (sub List.mem_cons_self) (.inl rfl)
  | more h _ ih =>
    exact .of_leads h (sub List.mem_cons_self)
      (.inr ⟨_, rfl, ih ok fun _ mem => sub (List.mem_cons_of_mem _ mem)⟩)

theorem Answered.gathers {platform : String} {entry : Path}
    (h : Answered (start platform entry) heard (.ok g)) :
    Gathers heard (start platform entry) g :=
  h.gathering rfl fun _ mem => mem

/-! ### What is gathered -/

/-- What is in the graph stays in it. -/
theorem Gathers.mem (h : Gathers all s g) (tidy : s.Tidy) {e : Path × List Path}
    (mem : e ∈ s.graph.shallow) : e ∈ g.shallow := by
  induction h with
  | last =>
    rw [tidy.grown_shallow]
    exact List.mem_append_left _ mem
  | more _ f _ ih =>
    refine ih (tidy.follows f) ?_
    rw [f.graph, tidy.grown_shallow]
    exact List.mem_append_left _ mem

/-- **No path comes twice.** -/
theorem Gathers.distinct (h : Gathers all s g) (tidy : s.Tidy) :
    (Path.meanings (g.shallow.map (·.1))).Nodup := by
  induction h with
  | @last s m deps =>
    have distinct := tidy.distinct
    rw [List.append_cons, Path.meanings_append, List.nodup_append] at distinct
    rw [tidy.grown_shallow, List.map_append]
    exact distinct.1
  | more _ f _ ih => exact ih (tidy.follows f)

/-- Modules and dependencies stand side by side, each as it was told. -/
def Paired (all : List Answer) (g : Graph) : Prop :=
  List.Forall₂ (fun e m => Told all e.1 m e.2) g.shallow g.modules

/-- **The graph has what was told**, module by module. -/
theorem Gathers.paired (h : Gathers all s g) (tidy : s.Tidy) (paired : Paired all s.graph) :
    Paired all g := by
  have grown : ∀ {s : Search} {m : Module} {deps : List Path}, s.Tidy → Paired all s.graph →
      Told all s.path m deps → Paired all (s.grown m deps) := by
    intro s m deps tidy paired told
    rw [Paired, tidy.grown_shallow]
    exact List.rel_append paired (.cons told .nil)
  induction h with
  | last told => exact grown tidy paired told
  | more told f _ ih => exact ih (tidy.follows f) (by rw [f.graph]; exact grown tidy paired told)

end Gathering

end Search

end HotReload
