import HotReload.Proofs.Resolver.Layout
import HotReload.Proofs.Session.Trace

/-!
# Discoveries path by path

A discovery that hears what a layout says looks at one path after the other.  It asks the questions
that there are about a path, takes the path in, and goes on with the next one that is known; with
the first path about which a question fails it ends.

* `Layout.Seen`: what is learnt of a path that is taken in.
* `Search.Visits`: a discovery by the paths that it looks at.
* `Search.Answered.visits`: a discovery that hears what a layout says.
* `Search.Queued.visits`: the paths are taken from a queue, up to its end where nothing fails.
-/

namespace HotReload

/-- What is learnt of a path: the module that is there, and what it imports. -/
structure Layout.Seen (l : Layout) (platform : String) (entry p : Path) (m : Module)
    (deps : List Path) : Prop where
  path : (m.path == p) = true
  kind : l.kind p = .ok m.kind
  look : l.look platform entry p = .ok deps

theorem Layout.look_of_error {l : Layout} {platform : String} {entry p : Path} {e : ResolveFault}
    (h : l.kind p = .error e) : l.look platform entry p = .error e := by rw [look, h]

theorem Layout.look_of_source {l : Layout} {platform : String} {entry p : Path}
    (h : l.kind p = .ok .source) :
    l.look platform entry p = l.dependencies ⟨platform, p, entry⟩ := by rw [look, h]

theorem Layout.look_of_leaf {l : Layout} {platform : String} {entry p : Path} {k : ModuleKind}
    (h : l.kind p = .ok k) (leaf : k ≠ .source) : l.look platform entry p = .ok [] := by
  rw [look, h]
  cases k with
  | source => exact absurd rfl leaf
  | json | asset => rfl

namespace Search

/-- A discovery that looks at one path after the other. -/
inductive Visits (l : Layout) (platform : String) (entry : Path) :
    Search → List Path → Except ResolveFault Graph → Prop
  | fault {s : Search} {e : ResolveFault} (look : l.look platform entry s.path = .error e) :
      Visits l platform entry s [s.path] (.error e)
  | last {s : Search} {m : Module} {deps : List Path}
      (seen : l.Seen platform entry s.path m deps) (stops : s.waiting ++ fresh s.met deps = []) :
      Visits l platform entry s [s.path] (.ok (s.grown m deps))
  | more {s s' : Search} {m : Module} {deps order : List Path} {result : Except ResolveFault Graph}
      (seen : l.Seen platform entry s.path m deps) (f : s.Follows m deps s')
      (rest : Visits l platform entry s' order result) :
      Visits l platform entry s (s.path :: order) result

section Visits

variable {l : Layout} {platform : String} {entry : Path} {s : Search} {heard : List Answer}
  {order : List Path} {result : Except ResolveFault Graph}

/-! ### What a discovery hears of a path -/

/-- What a discovery hears from a path on: the answers to the questions about the paths that it
looks at. -/
def Accounts (l : Layout) (platform : String) (entry : Path) (s : Search) (heard : List Answer)
    (result : Except ResolveFault Graph) : Prop :=
  ∃ order, Visits l platform entry s order result ∧
    heard.map Answer.call = order.flatMap (l.questions platform entry)

theorem Accounts.of_fault {e : ResolveFault} (look : l.look platform entry s.path = .error e)
    (asked : heard.map Answer.call = l.questions platform entry s.path) :
    Accounts l platform entry s heard (.error e) :=
  ⟨[s.path], .fault look, by rw [List.flatMap_singleton, asked]⟩

/-- A path is taken in, and the others are looked at. -/
theorem Accounts.of_absorb (heard : List Answer) {m : Module} {deps : List Path}
    {more : List Answer}
    (seen : l.Seen platform entry s.path m deps)
    (asked : heard.map Answer.call = l.questions platform entry s.path)
    (goes : match (.ok (s.absorb m deps) : Except ResolveFault (Search ⊕ Graph)) with
      | .error e => more = [] ∧ result = .error e
      | .ok (.inr g) => more = [] ∧ result = .ok g
      | .ok (.inl s') => s'.Answered more result)
    (rest : ∀ {s' : Search}, s.Follows m deps s' → s'.Answered more result →
      Accounts l platform entry s' more result) :
    Accounts l platform entry s (heard ++ more) result := by
  rcases s.absorb_cases m deps with ⟨absorbed, stops⟩ | ⟨s', absorbed, f⟩
  · rw [absorbed] at goes
    obtain ⟨rfl, rfl⟩ := goes
    exact ⟨[s.path], .last seen stops, by rw [List.append_nil, List.flatMap_singleton, asked]⟩
  · rw [absorbed] at goes
    obtain ⟨order, visits, calls⟩ := rest f goes
    exact ⟨s.path :: order, .more seen f visits, by
      rw [List.map_append, asked, calls, List.flatMap_cons]⟩

/-- **A discovery that hears what a layout says** looks at one path after the other. -/
theorem Answered.visits (h : s.Answered heard result) (fits : ∀ a ∈ heard, a.Fits l)
    (platform_eq : s.platform = platform) (entry_eq : s.entry = entry) (idle : s.pending = none) :
    Accounts l platform entry s heard result := by
  -- one path takes an answer or two; those that are left are about the paths after it
  induction size : heard.length using Nat.strong_induction_on generalizing s heard with
  | _ n ih =>
    obtain ⟨a, led, rest, rfl, leads, goes⟩ := h.head
    obtain ⟨answer, rfl, rfl⟩ := leads_idle leads idle
    obtain ⟨kind, named⟩ := fits _ List.mem_cons_self
    cases answer with
    | error e =>
      have kind : l.kind s.path = .error e := kind.symm
      obtain ⟨rfl, rfl⟩ := goes
      exact .of_fault (Layout.look_of_error kind) (by rw [Layout.questions, kind]; rfl)
    | ok m =>
      have kind : l.kind s.path = .ok m.kind := kind.symm
      have path := named m rfl
      cases source : m.isSource with
      | false =>
        have leaf : m.kind ≠ .source := of_decide_eq_false source
        simp only [Except.map, source, Bool.false_eq_true, if_false] at goes
        refine .of_absorb [_] ⟨path, kind, Layout.look_of_leaf kind leaf⟩ ?_ goes
          fun f answered => ?_
        · rw [Layout.questions, kind]
          split
          · next code => exact absurd (Except.ok.inj code) leaf
          · rfl
        · exact ih rest.length (by rw [← size]; exact Nat.lt_succ_self _) answered
            (fun a mem => fits a (List.mem_cons_of_mem _ mem)) (f.platform.trans platform_eq)
            (f.entry.trans entry_eq) f.pending rfl
      | true =>
        have code : m.kind = .source := of_decide_eq_true source
        rw [code] at kind
        simp only [Except.map, source, if_true] at goes
        obtain ⟨a, led, rest, rfl, leads, goes⟩ := goes.head
        obtain ⟨answer, rfl, rfl⟩ := leads_pending leads rfl
        have listed : answer = l.dependencies ⟨s.platform, s.path, s.entry⟩ :=
          fits _ (List.mem_cons_of_mem _ List.mem_cons_self)
        have look : l.look platform entry s.path = answer := by
          rw [Layout.look_of_source kind, listed, platform_eq, entry_eq]
        have asked : [Call.module s.path, .dependencies ⟨s.platform, s.path, s.entry⟩] =
            l.questions platform entry s.path := by
          rw [Layout.questions, kind, platform_eq, entry_eq]
        cases answer with
        | error e =>
          obtain ⟨rfl, rfl⟩ := goes
          exact .of_fault look asked
        | ok deps =>
          refine .of_absorb [_, _] ⟨path, code ▸ kind, look⟩ asked goes
            fun f answered => ?_
          have fewer : rest.length < n := by
            rw [← size, List.length_cons, List.length_cons]
            omega
          exact ih rest.length fewer answered
            (fun a mem => fits a (List.mem_cons_of_mem _ (List.mem_cons_of_mem _ mem)))
            (f.platform.trans platform_eq) (f.entry.trans entry_eq) f.pending rfl

/-! ### The queue of a discovery -/

/-- A search whose paths were taken from a queue, and whose next path is the next one there. -/
structure Queued (children : Path → List Path) (s : Search) : Prop where
  tidy : s.Tidy
  lined : s.Lined
  takes : Takes children s.entry s.graph.keys
  met : s.met = known children s.entry s.graph.keys

theorem queued_start (children : Path → List Path) (platform : String) (entry : Path) :
    (start platform entry).Queued children :=
  ⟨tidy_start platform entry, rfl, .start, rfl⟩

variable {children : Path → List Path}

/-- The path that is being looked at is taken from the queue. -/
theorem Queued.next (q : s.Queued children) : Takes children s.entry (s.graph.keys ++ [s.path]) :=
  q.takes.next (q.met.symm.trans q.lined)

theorem Queued.grown_keys (q : s.Queued children) (m : Module) (deps : List Path) :
    (s.grown m deps).keys = s.graph.keys ++ [s.path] := by
  rw [Graph.keys, q.tidy.grown_shallow, List.map_append]
  rfl

/-- What a path imports is known when the path was taken. -/
theorem Queued.known_next {deps : List Path} (q : s.Queued children)
    (imports : children s.path = deps) :
    known children s.entry (s.graph.keys ++ [s.path]) = s.met ++ fresh s.met deps := by
  rw [known_append, ← q.met, List.flatMap_singleton, imports]

theorem Queued.follows {s' : Search} {m : Module} {deps : List Path} (q : s.Queued children)
    (f : s.Follows m deps s') (imports : children s.path = deps) : s'.Queued children where
  tidy := q.tidy.follows f
  lined := q.lined.follows q.tidy f
  takes := by
    rw [f.entry, f.graph, q.grown_keys]
    exact q.next
  met := by rw [f.entry, f.graph, q.grown_keys, q.known_next imports, f.met]

/-- What a discovery comes to that looks at some paths after those in its graph. -/
inductive Outcome (l : Layout) (platform : String) (entry : Path) (s : Search) (order : List Path) :
    Except ResolveFault Graph → Prop where
  /-- Nothing more is known, and all that was looked at is in the graph. -/
  | found {g : Graph} (keys : g.keys = s.graph.keys ++ order)
      (ends : known (l.imports platform entry) s.entry g.keys = g.keys)
      (beside : List.Forall₂ (fun e m => l.Seen platform entry e.1 m e.2) s.graph.shallow
          s.graph.modules →
        List.Forall₂ (fun e m => l.Seen platform entry e.1 m e.2) g.shallow g.modules)
      (looked : ∀ p ∈ order, ∃ deps, l.look platform entry p = .ok deps) :
      Outcome l platform entry s order (.ok g)
  /-- Nothing can be learnt of the last path. -/
  | failed (before : List Path) {p : Path} {e : ResolveFault} (last : order = before ++ [p])
      (looked : ∀ p ∈ before, ∃ deps, l.look platform entry p = .ok deps)
      (look : l.look platform entry p = .error e) : Outcome l platform entry s order (.error e)

/-- **What is looked at** is taken from the queue. -/
theorem Queued.visits (q : s.Queued (l.imports platform entry))
    (v : Visits l platform entry s order result) :
    Takes (l.imports platform entry) s.entry (s.graph.keys ++ order) ∧
      Outcome l platform entry s order result := by
  have grown : ∀ {s : Search} {m : Module} {deps : List Path},
      s.Queued (l.imports platform entry) → l.Seen platform entry s.path m deps →
      List.Forall₂ (fun e m => l.Seen platform entry e.1 m e.2) s.graph.shallow s.graph.modules →
      List.Forall₂ (fun e m => l.Seen platform entry e.1 m e.2) (s.grown m deps).shallow
        (s.grown m deps).modules := by
    intro s m deps q seen beside
    rw [q.tidy.grown_shallow]
    exact List.rel_append beside (.cons seen .nil)
  induction v with
  | fault look => exact ⟨q.next, .failed [] rfl (fun _ mem => by cases mem) look⟩
  | @last s m deps seen stops =>
    have imports := Layout.imports_of_look seen.look
    obtain ⟨waiting, new⟩ := List.append_eq_nil_iff.mp stops
    refine ⟨q.next, .found (q.grown_keys m deps) ?_ (grown q seen) fun p mem => ?_⟩
    · rw [q.grown_keys, q.known_next imports, q.lined, waiting, ← waiting, ← q.lined, new,
        List.append_nil, q.lined, waiting]
    · rw [List.mem_singleton.mp mem]
      exact ⟨deps, seen.look⟩
  | @more s s' m deps order result seen f rest ih =>
    obtain ⟨takes, outcome⟩ := ih (q.follows f (Layout.imports_of_look seen.look))
    have keys : s'.graph.keys ++ order = s.graph.keys ++ s.path :: order := by
      rw [f.graph, q.grown_keys, List.append_assoc, List.singleton_append]
    rw [keys, f.entry] at takes
    refine ⟨takes, ?_⟩
    have looked_next : ∀ {paths : List Path},
        (∀ p ∈ paths, ∃ deps, l.look platform entry p = .ok deps) →
        ∀ p ∈ s.path :: paths, ∃ deps, l.look platform entry p = .ok deps :=
      fun looked => List.forall_mem_cons.mpr ⟨⟨deps, seen.look⟩, looked⟩
    cases outcome with
    | found keys' ends beside looked =>
      refine .found (keys'.trans keys) (by rwa [f.entry] at ends) (fun before => beside ?_)
        (looked_next looked)
      rw [f.graph]
      exact grown q seen before
    | @failed before p _ last looked look =>
      exact .failed (s.path :: before) (by rw [last]; rfl) (looked_next looked) look

end Visits

end Search

end HotReload
