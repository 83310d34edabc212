import HotReload.Proofs.Graph.Charts

/-!
# What a discovery asks of a tree

A tree records what it is asked.  A discovery asks it for one path after the other, breadth first:
which module is there, and what it imports where it is source.  No question comes twice, and none
comes after one that failed.

* `Tree.imports_subset`: there are only so many paths that the files of a tree import.
* `Search.run_calls`: what a tree records of a discovery.
* `Tree.Asked`: a discovery up to the first path about which a question fails.
* `Tree.discovery_asks`: every discovery in a tree is such a one.
-/

namespace HotReload

/-! ### Questions that come twice -/

/-- Two lookups are about one path and ask for the same. -/
inductive Call.Repeats : Call → Call → Prop where
  | module {p q : Path} (same : (p == q) = true) : Repeats (.module p) (.module q)
  | dependencies {a b : Lookup} (same : (a.file == b.file) = true) :
      Repeats (.dependencies a) (.dependencies b)

/-- The questions about different paths are different, and so are those about one path. -/
theorem Layout.pairwise_questions (l : Layout) (platform : String) (entry : Path)
    {order : List Path} (distinct : (Path.meanings order).Nodup) :
    (order.flatMap (l.questions platform entry)).Pairwise fun a b => ¬ a.Repeats b := by
  rw [List.pairwise_flatMap]
  constructor
  · intro p _
    unfold questions
    split
    · refine .cons (fun b mem => ?_) (List.pairwise_singleton ..)
      rw [List.mem_singleton.mp mem]
      rintro ⟨⟩
    · exact List.pairwise_singleton ..
  · have about : ∀ {p : Path} {c : Call}, c ∈ l.questions platform entry p →
        c = .module p ∨ c = .dependencies ⟨platform, p, entry⟩ := by
      intro p c mem
      unfold questions at mem
      split at mem
      · simpa using mem
      · exact .inl (List.mem_singleton.mp mem)
    refine (List.pairwise_map.mp distinct).imp fun {p q} other a here b there again => other ?_
    rcases about here with rfl | rfl <;> rcases about there with rfl | rfl
    · cases again with | module same => exact Path.beq_iff.mp same
    · cases again
    · cases again
    · cases again with | dependencies same => exact Path.beq_iff.mp same

/-! ### What a tree records -/

namespace Tree

/-- The entry and all that a tree says its files import, on any platform. -/
def mentioned (t : Tree) (entry : Path) : List Path :=
  entry :: (t.files.flatMap (·.2.dependencies) ++ t.platformDependencies.flatMap (·.2))

/-- **A tree has only so many paths:** what a file imports is mentioned somewhere. -/
theorem imports_subset (t : Tree) (platform : String) (entry p : Path) :
    t.snapshot.layout.imports platform entry p ⊆ t.mentioned entry := by
  intro d mem
  cases look : t.snapshot.layout.look platform entry p with
  | error e =>
    rw [Layout.imports, look] at mem
    cases mem
  | ok deps =>
    rw [Layout.imports_of_look look] at mem
    cases kind : t.snapshot.layout.kind p with
    | error e =>
      rw [Layout.look_of_error kind] at look
      cases look
    | ok k =>
      by_cases source : k = .source
      · rw [source] at kind
        rw [Layout.look_of_source kind] at look
        obtain ⟨-, -, file, found, rfl⟩ := askDependencies_ok_iff.mp look
        refine List.mem_cons_of_mem _ (List.mem_append.mpr ?_)
        cases special : Assoc.get? t.platformDependencies (platform, p) with
        | none =>
          rw [special, Option.getD_none] at mem
          obtain ⟨key, here, -⟩ := Assoc.mem_of_get? found
          exact .inl (List.mem_flatMap.mpr ⟨_, here, mem⟩)
        | some own =>
          rw [special, Option.getD_some] at mem
          obtain ⟨key, here, -⟩ := Assoc.mem_of_get? special
          exact .inr (List.mem_flatMap.mpr ⟨_, here, mem⟩)
      · rw [Layout.look_of_leaf kind source, Except.ok.injEq] at look
        rw [← look] at mem
        cases mem

/-- A tree records each question. -/
theorem answer_calls {α : Type} (q : Query α) (t : Tree) :
    (q.answer resolver t).2.calls = t.calls ++ [(q.reply resolver t).call] := by
  cases q with
  | module path next => rfl
  | dependencies lookup next =>
    show (askDependencies lookup t).2.calls = _
    simp only [askDependencies]
    split <;> rfl

end Tree

/-- **What a tree records of a discovery** are the questions to the answers that are heard. -/
theorem Search.run_calls (fuel : Nat) (s : Search) (t : Tree) :
    (s.run Tree.resolver fuel t).2.calls =
      t.calls ++ (s.hears Tree.resolver fuel t).map Answer.call := by
  induction fuel generalizing s t with
  | zero => exact (List.append_nil _).symm
  | succ fuel ih =>
    have asked := Tree.answer_calls s.next t
    rw [run, hears]
    generalize s.next.answer Tree.resolver t = next at asked
    obtain ⟨e | s' | g, t'⟩ := next
    · exact asked
    · rw [List.map_cons, List.append_cons, ← asked]
      exact ih s' t'
    · exact asked

/-! ### Discoveries in a tree -/

namespace Tree

/-- A discovery asks a tree for the paths in an order, up to the first one about which a question
fails. -/
inductive Asked (t : Tree) (platform : String) (entry : Path) (order : List Path) :
    Except ResolveFault Graph → Tree → Prop where
  /-- No question fails. -/
  | all {g : Graph} {t' : Tree}
      (looked : ∀ p ∈ order, ∃ deps, t.snapshot.layout.look platform entry p = .ok deps)
      (calls : t'.calls =
        t.calls ++ order.flatMap (t.snapshot.layout.questions platform entry)) :
      Asked t platform entry order (.ok g) t'
  /-- The fault of the first question that fails is the result, and nothing is asked after it. -/
  | failed {before after : List Path} {p : Path} {e : ResolveFault} {t' : Tree}
      (split : order = before ++ p :: after)
      (looked : ∀ q ∈ before, ∃ deps, t.snapshot.layout.look platform entry q = .ok deps)
      (look : t.snapshot.layout.look platform entry p = .error e)
      (calls : t'.calls =
        t.calls ++ (before ++ [p]).flatMap (t.snapshot.layout.questions platform entry)) :
      Asked t platform entry order (.error e) t'

/-- It succeeds where no question about what the entry leads to fails. -/
theorem Asked.ok_iff {t t' : Tree} {platform : String} {entry : Path} {order : List Path}
    {result : Except ResolveFault Graph} (h : t.Asked platform entry order result t')
    (ordered : BreadthFirst (t.snapshot.layout.imports platform entry) entry order) :
    (∃ g, result = .ok g) ↔
      ∀ n p, Away (t.snapshot.layout.imports platform entry) entry n p →
        ∃ deps, t.snapshot.layout.look platform entry p = .ok deps := by
  cases h with
  | @all g _ looked =>
    refine ⟨fun _ n p way => ?_, fun _ => ⟨g, rfl⟩⟩
    obtain ⟨q, mem, same⟩ :=
      List.contains_iff_exists_mem_beq.mp ((ordered.contains_iff p).mpr ⟨n, way⟩)
    obtain ⟨deps, look⟩ := looked q mem
    obtain ⟨deps', look', -⟩ := Layout.look_congr (BEq.symm same) look
    exact ⟨deps', look'⟩
  | @failed before after p e _ split _ look =>
    refine ⟨(fun ⟨_, ok⟩ => by cases ok), fun learnt => ?_⟩
    have listed : order.contains p = true := by
      rw [split, List.contains_iff_exists_mem_beq]
      exact ⟨p, List.mem_append_right _ List.mem_cons_self, BEq.rfl⟩
    obtain ⟨n, way⟩ := (ordered.contains_iff p).mp listed
    obtain ⟨deps, look'⟩ := learnt n p way
    rw [look] at look'
    cases look'

/-- The calls that a discovery adds come once each. -/
theorem Asked.exists_calls {t t' : Tree} {platform : String} {entry : Path} {order : List Path}
    {result : Except ResolveFault Graph} (h : t.Asked platform entry order result t')
    (distinct : (Path.meanings order).Nodup) :
    ∃ asked, t'.calls = t.calls ++ asked ∧ asked.Pairwise fun a b => ¬ a.Repeats b := by
  have calls := t.snapshot.layout.pairwise_questions platform entry distinct
  cases h with
  | all _ same => exact ⟨_, same, calls⟩
  | @failed before after p _ _ split _ _ same =>
    rw [split, List.append_cons, List.flatMap_append] at calls
    exact ⟨_, same, (List.pairwise_append.mp calls).1⟩

/-- **A discovery in a tree** ends.  It asks for one path after the other in breadth-first order, no
question twice, and none after the first one that fails, whose fault is its result; it succeeds
exactly if no question about a path that the entry leads to fails. -/
theorem discovery_asks (t : Tree) (platform : String) (entry : Path) :
    ∃ order asked result t',
      (Search.start platform entry).run resolver t.bound t = (some result, t') ∧
      Search.discover resolver platform entry t = (result, t') ∧
      BreadthFirst (t.snapshot.layout.imports platform entry) entry order ∧
      t.Asked platform entry order result t' ∧
      t'.calls = t.calls ++ asked ∧ asked.Pairwise (fun a b => ¬ a.Repeats b) ∧
      ((∃ g, result = .ok g) ↔
        ∀ n p, Away (t.snapshot.layout.imports platform entry) entry n p →
          ∃ deps, t.snapshot.layout.look platform entry p = .ok deps) := by
  have ends := t.discovery_ends platform entry
  have recorded := Search.run_calls t.bound (Search.start platform entry) t
  generalize ran : (Search.start platform entry).run resolver t.bound t = found at ends recorded
  obtain ⟨answer, t'⟩ := found
  obtain ⟨result, rfl⟩ := Option.isSome_iff_exists.mp ends
  have discovered : Search.discover resolver platform entry t = (result, t') := by
    rw [Search.discover, show resolver.bound t = t.bound from rfl, ran]
  -- what is heard are the answers about the paths that are taken from the queue
  obtain ⟨taken, visits, calls⟩ := (Search.answered_of_run (congrArg Prod.fst ran)).visits
    (Search.fits_hears t.showsFrom.depicts t.bound (Search.start platform entry)) rfl rfl rfl
  rw [calls] at recorded
  obtain ⟨takes, outcome⟩ := (Search.queued_start _ platform entry).visits visits
  have takes : Takes (t.snapshot.layout.imports platform entry) entry taken := takes
  obtain ⟨order, ordered, asked⟩ : ∃ order,
      BreadthFirst (t.snapshot.layout.imports platform entry) entry order ∧
        t.Asked platform entry order result t' := by
    cases outcome with
    | found keys stops _ looked =>
      rw [show _ = taken from keys] at stops
      exact ⟨taken, takes.breadthFirst stops Layout.spelled_imports, .all looked recorded⟩
    | @failed before p e last looked look =>
      -- the queue goes on without the paths that cannot be looked at
      obtain ⟨rest, more, stops⟩ := takes.completes
        (List.mem_map_of_mem (List.mem_cons_self : entry ∈ t.mentioned entry))
        fun {p d} child => List.mem_map_of_mem (t.imports_subset platform entry p child)
      refine ⟨taken ++ rest, more.breadthFirst stops Layout.spelled_imports, ?_⟩
      rw [last] at recorded ⊢
      exact .failed (List.append_cons before p rest).symm looked look recorded
  obtain ⟨added, same, once⟩ := asked.exists_calls ordered.distinct
  exact ⟨order, added, result, t', rfl, discovered, ordered, asked, same, once,
    asked.ok_iff ordered⟩

/-- Nothing is asked after the first fault, though two paths are known that were not looked at. -/
example :
    let spoilt := Sample.maze.fail ⟨"/a"⟩ (.other "unreadable")
    (Search.discover resolver "ios" ⟨"/m"⟩ spoilt).2.calls.map Call.text =
      ["module /m", "shallow ios /m root=/m hot=true minify=false",
        "module /b", "shallow ios /b root=/m hot=true minify=false",
        "module //a", "shallow ios //a root=/m hot=true minify=false"] := by
  decide +kernel

end Tree

end HotReload
