import HotReload.Session.Reaction

/-!
# Reactions

The reaction to a change is found in steps, and the resolver can answer anything in each of them.
`Session.Reacts` lists what can be found: a graph that holds from then on, with a reaction.

* `Progress.start_sound`, `Probe.next_sound`: what is known on the way.
* `Session.jobFor?_cases`: what is ordered of the modules that are to be rebuilt.
-/

namespace HotReload

theorem Query.answer_map {σ α β : Type} (r : Resolver σ) (st : σ) (f : α → β) (q : Query α) :
    (q.map f).answer r st = (f (q.answer r st).1, (q.answer r st).2) := by
  cases q <;> rfl

/-- The graph that holds after a change and the reaction to it, once all questions are answered. -/
inductive Session.Reacts (s : Session) (change : Change) : Graph → Reaction → Prop where
  /-- The path has dependencies, but no module. -/
  | unknown (h : s.graph.moduleAt? change.path = none) : Reacts s change s.graph .irrelevant
  | deleted {m : Module} (h : s.graph.moduleAt? change.path = some m)
      (gone : change.isDeletion = true) (entry : (change.path == s.entry) = false) :
      Reacts s change s.graph (.deleted m)
  | asset {m : Module} (h : s.graph.moduleAt? change.path = some m) (kind : m.kind = .asset) :
      Reacts s change s.graph (.rebuild [])
  /-- Data, or code that depends on what it depended on before. -/
  | alone {m : Module} (h : s.graph.moduleAt? change.path = some m) :
      Reacts s change s.graph (.rebuild [m])
  | regraphed {m : Module} (h : s.graph.moduleAt? change.path = some m) (g : Graph) :
      Reacts s change g (Progress.regraphed s change g)

/-- What is known of the reaction to a change concerns a module of the session, unless the reaction
is found. -/
def Progress.Sound (s : Session) (change : Change) : Progress → Prop
  | .probing (.dependencies m) => s.graph.moduleAt? change.path = some m
  | .probing (.graph _) | .settled (.error _) => ∃ m, s.graph.moduleAt? change.path = some m
  | .settled (.ok (g, reaction)) => s.Reacts change g reaction

theorem Progress.start_sound {s : Session} {change : Change} (h : s.isRelevant change = true) :
    (Progress.start s change).Sound s change := by
  unfold Progress.start
  rw [h]
  simp only [Bool.not_true, Bool.false_eq_true, ↓reduceIte]
  split
  · next hm => exact .unknown hm
  · next m hm =>
    split
    · next gone =>
      split
      · exact ⟨m, hm⟩
      · next entry => exact .deleted hm gone (Bool.not_eq_true _ ▸ entry)
    · split
      · next kind => exact .asset hm kind
      · exact .alone hm
      · exact hm

theorem Probe.next_sound {σ : Type} (r : Resolver σ) (st : σ) {s : Session} {change : Change}
    {probe : Probe} (h : (Progress.probing probe).Sound s change) :
    ((probe.next s change).answer r st).1.Sound s change := by
  cases probe with
  | dependencies m =>
    have hm : s.graph.moduleAt? change.path = some m := h
    simp only [Probe.next, Query.answer]
    split
    · exact ⟨m, hm⟩
    · split
      · exact .alone hm
      · exact ⟨m, hm⟩
  | graph search =>
    obtain ⟨m, hm⟩ := h
    simp only [Probe.next, Query.answer_map]
    split
    · exact ⟨m, hm⟩
    · exact ⟨m, hm⟩
    · exact .regraphed hm _

/-! ### Orders -/

/-- What a session orders: those of the modules that belong to its program. -/
theorem Session.jobFor?_cases (s : Session) (endpoint : Endpoint) (modules : List Module) :
    (s.jobFor? endpoint modules = none ∧
      modules.filter (fun m => s.graph.containsPath m.path) = []) ∨
    ∃ job, s.jobFor? endpoint modules = some job ∧ job.resolution = s.resolution ∧
      job.modules = modules.filter (fun m => s.graph.containsPath m.path) ∧ job.modules ≠ [] := by
  unfold jobFor?
  split
  · next h => exact .inl ⟨rfl, h⟩
  · next reachable h =>
    exact .inr ⟨_, rfl, rfl, rfl, fun hnil => h hnil⟩

end HotReload
