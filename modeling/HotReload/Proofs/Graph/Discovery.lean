import HotReload.Graph.Search
import HotReload.Proofs.Graph.Alike
import HotReload.Proofs.Resolver.Snapshot

/-!
# What a discovery finds

A discovery over a snapshot takes one file after the other, each with its module and its
dependencies: `Search.Explores` is such a discovery that succeeds.  No path is met twice, so that
each file found has one place in the graph, with the dependencies that the snapshot has for it.

* `Search.explores_of_discover`: what `Search.discover` finds is explored.
* `Search.Explores.listed`: the graph says what the snapshot says.
* `Tree.discovery_ends`: in a tree, the bound on the questions is never reached.
-/

namespace HotReload

/-- At a path of a program, a snapshot has a module with its dependencies. -/
structure Snapshot.Has (v : Snapshot) (platform : String) (entry p : Path) (m : Module)
    (deps : List Path) : Prop where
  module : v.module p = .ok m
  source : m.isSource = true → v.dependencies ⟨platform, p, entry⟩ = .ok deps
  leaf : m.isSource = false → deps = []

/-- A graph says of the files in it what a snapshot says. -/
structure Graph.Listed (v : Snapshot) (platform : String) (entry : Path) (g : Graph) : Prop where
  entries : ∀ e ∈ g.shallow, ∃ m ∈ g.modules, v.Has platform entry e.1 m e.2
  modules : ∀ m ∈ g.modules, ∃ e ∈ g.shallow, v.Has platform entry e.1 m e.2

namespace Search

/-! ### Paths that were not met before -/

theorem not_mem_met_of_mem_fresh {met ps : List Path} {p : Path} (h : p ∈ fresh met ps) :
    p.components ∉ Path.meanings met := by
  induction ps generalizing met with
  | nil => cases h
  | cons q ps ih =>
    unfold fresh at h
    split at h
    · exact ih h
    · next hq =>
      rcases List.mem_cons.mp h with rfl | h
      · rw [Path.contains_iff_meanings, List.contains_iff_mem] at hq
        exact hq
      · intro hp
        exact ih h (List.mem_cons_of_mem _ hp)

theorem nodup_fresh (met ps : List Path) : (Path.meanings (fresh met ps)).Nodup := by
  induction ps generalizing met with
  | nil => exact List.nodup_nil
  | cons q ps ih =>
    unfold fresh
    split
    · exact ih met
    · refine List.nodup_cons.mpr ⟨fun hq => ?_, ih _⟩
      obtain ⟨p, hp, heq⟩ := List.mem_map.mp hq
      exact not_mem_met_of_mem_fresh hp (heq ▸ List.mem_cons_self)

/-! ### Taking a file in -/

/-- The graph of a search with the file that is being looked at. -/
def grown (s : Search) (m : Module) (deps : List Path) : Graph :=
  ⟨s.graph.modules ++ [m], Assoc.insert s.graph.shallow s.path deps⟩

/-- A search that goes on after a file was taken in. -/
structure Follows (s : Search) (m : Module) (deps : List Path) (s' : Search) : Prop where
  platform : s'.platform = s.platform
  entry : s'.entry = s.entry
  pending : s'.pending = none
  graph : s'.graph = s.grown m deps
  queue : s'.path :: s'.waiting = s.waiting ++ fresh s.met deps
  met : s'.met = s.met ++ fresh s.met deps

theorem absorb_cases (s : Search) (m : Module) (deps : List Path) :
    (s.absorb m deps = .inr (s.grown m deps) ∧ s.waiting ++ fresh s.met deps = []) ∨
      ∃ s', s.absorb m deps = .inl s' ∧ s.Follows m deps s' := by
  cases hq : s.waiting ++ fresh s.met deps with
  | nil =>
    simp only [absorb, hq]
    exact .inl ⟨rfl, trivial⟩
  | cons path waiting =>
    simp only [absorb, hq]
    refine .inr ⟨_, rfl, ?_⟩
    exact ⟨rfl, rfl, rfl, rfl, hq.symm, rfl⟩

/-- No path was met twice, and the paths that are to be looked at have been met. -/
structure Tidy (s : Search) : Prop where
  distinct : (Path.meanings (s.graph.shallow.map (·.1) ++ s.path :: s.waiting)).Nodup
  known : ∀ c ∈ Path.meanings (s.graph.shallow.map (·.1) ++ s.path :: s.waiting),
    c ∈ Path.meanings s.met

theorem tidy_start (platform : String) (entry : Path) : (start platform entry).Tidy :=
  ⟨List.nodup_cons.mpr ⟨List.not_mem_nil, List.nodup_nil⟩, fun _ h => h⟩

/-- A file that is taken in goes last. -/
theorem Tidy.grown_shallow {s : Search} (t : s.Tidy) (m : Module) (deps : List Path) :
    (s.grown m deps).shallow = s.graph.shallow ++ [(s.path, deps)] := by
  refine Assoc.insert_of_not_contains ?_
  rw [Assoc.contains, List.any_eq_false]
  intro e he hpath
  have distinct := t.distinct
  rw [Path.meanings_append, List.nodup_append] at distinct
  refine distinct.2.2 e.1.components ?_ s.path.components List.mem_cons_self (Path.beq_iff.mp hpath)
  exact List.mem_map_of_mem (List.mem_map_of_mem he)

theorem Tidy.follows {s s' : Search} {m : Module} {deps : List Path} (t : s.Tidy)
    (f : s.Follows m deps s') : s'.Tidy := by
  have paths : s'.graph.shallow.map (·.1) ++ s'.path :: s'.waiting =
      (s.graph.shallow.map (·.1) ++ s.path :: s.waiting) ++ fresh s.met deps := by
    rw [f.queue, f.graph, t.grown_shallow]
    simp
  -- what is queued now was not met, and all that was queued or taken in before was
  constructor
  · rw [paths, Path.meanings_append, List.nodup_append]
    refine ⟨t.distinct, nodup_fresh s.met deps, fun c hc c' hc' heq => ?_⟩
    obtain ⟨p, hp, rfl⟩ := List.mem_map.mp hc'
    exact not_mem_met_of_mem_fresh hp (heq ▸ t.known c hc)
  · intro c hc
    rw [f.met, Path.meanings_append]
    rw [paths, Path.meanings_append] at hc
    rcases List.mem_append.mp hc with hc | hc
    · exact List.mem_append_left _ (t.known c hc)
    · exact List.mem_append_right _ hc

/-! ### Discoveries that succeed -/

/-- A search that finds a graph: it takes in one file after the other. -/
inductive Explores (v : Snapshot) : Search → Graph → Prop
  | last {s : Search} {m : Module} {deps : List Path}
      (has : v.Has s.platform s.entry s.path m deps) (h : s.waiting ++ fresh s.met deps = []) :
      Explores v s (s.grown m deps)
  | more {s s' : Search} {m : Module} {deps : List Path} {g : Graph}
      (has : v.Has s.platform s.entry s.path m deps) (f : s.Follows m deps s')
      (ex : Explores v s' g) : Explores v s g

/-- The first file of a search that finds a graph. -/
theorem Explores.first {v : Snapshot} {s : Search} {g : Graph} (ex : Explores v s g) :
    ∃ m deps, v.Has s.platform s.entry s.path m deps ∧
      (g = s.grown m deps ∧ s.waiting ++ fresh s.met deps = [] ∨
        ∃ s', s.Follows m deps s' ∧ Explores v s' g) := by
  cases ex with
  | @last _ m deps has h => exact ⟨m, deps, has, .inl ⟨rfl, h⟩⟩
  | @more _ s' m deps _ has f ex => exact ⟨m, deps, has, .inr ⟨s', f, ex⟩⟩

/-- A file is taken in and the rest is explored. -/
theorem Explores.of_absorb {v : Snapshot} {s : Search} {m : Module} {deps : List Path} {g : Graph}
    (has : v.Has s.platform s.entry s.path m deps)
    (rest : s.absorb m deps = .inr g ∨
      ∃ s', s.absorb m deps = .inl s' ∧ (s.Follows m deps s' → Explores v s' g)) :
    Explores v s g := by
  rcases s.absorb_cases m deps with ⟨h, done⟩ | ⟨s', h, f⟩
  · rcases rest with hg | ⟨s', hs', -⟩
    · rw [h] at hg
      cases hg
      exact .last has done
    · rw [h] at hs'
      cases hs'
  · rcases rest with hg | ⟨s'', hs'', ex⟩
    · rw [h] at hg
      cases hg
    · rw [h] at hs''
      cases hs''
      exact .more has f (ex f)

/-- What becomes of a search over a snapshot with the next answer. -/
def turn (v : Snapshot) (s : Search) : Except ResolveFault (Search ⊕ Graph) :=
  (s.next.answer v.resolver ()).1

theorem turn_module {v : Snapshot} {s : Search} (h : s.pending = none) :
    turn v s = (v.module s.path).map fun m =>
      if m.isSource then .inl { s with pending := some m } else s.absorb m [] := by
  rw [turn, next, h]
  rfl

theorem turn_dependencies {v : Snapshot} {s : Search} {m : Module} (h : s.pending = some m) :
    turn v s = (v.dependencies ⟨s.platform, s.path, s.entry⟩).map (s.absorb m) := by
  rw [turn, next, h]
  rfl

/-- What a search comes to from there on. -/
def resume (v : Snapshot) (fuel : Nat) :
    Except ResolveFault (Search ⊕ Graph) → Option (Except ResolveFault Graph)
  | .error e => some (.error e)
  | .ok (.inl s) => (s.run v.resolver fuel ()).1
  | .ok (.inr g) => some (.ok g)

theorem run_succ (v : Snapshot) (fuel : Nat) (s : Search) :
    (s.run v.resolver (fuel + 1) ()).1 = resume v fuel (turn v s) := by
  unfold turn
  rw [run]
  generalize s.next.answer v.resolver () = asked
  obtain ⟨e | s' | g, _⟩ := asked <;> rfl

/-- A search that finds a graph finds it with the next answer or goes on. -/
theorem run_succ_ok {v : Snapshot} {fuel : Nat} {s : Search} {g : Graph}
    (h : (s.run v.resolver (fuel + 1) ()).1 = some (.ok g)) :
    turn v s = .ok (.inr g) ∨
      ∃ s', turn v s = .ok (.inl s') ∧ (s'.run v.resolver fuel ()).1 = some (.ok g) := by
  rw [run_succ] at h
  generalize turn v s = answer at h ⊢
  rcases answer with e | s' | g'
  · cases h
  · exact .inr ⟨s', rfl, h⟩
  · cases h
    exact .inl rfl

theorem map_eq_ok {ε α β : Type} {f : α → β} {x : Except ε α} {b : β} (h : x.map f = .ok b) :
    ∃ a, x = .ok a ∧ f a = b := by
  cases x with
  | error e => cases h
  | ok a => exact ⟨a, rfl, Except.ok.inj h⟩

/-- What a search finds is explored, also where the module of the next file is known already. -/
theorem explores_of_run {v : Snapshot} {fuel : Nat} {s : Search} {g : Graph}
    (h : (s.run v.resolver fuel ()).1 = some (.ok g)) :
    (s.pending = none → Explores v s g) ∧
    ∀ m, s.pending = some m → v.module s.path = .ok m → m.isSource = true →
      Explores v { s with pending := none } g := by
  induction fuel generalizing s with
  | zero => cases h
  | succ fuel ih =>
    constructor
    · intro idle
      rcases run_succ_ok h with h | ⟨s', h, hrun⟩
      · rw [turn_module idle] at h
        obtain ⟨m, hm, ha⟩ := map_eq_ok h
        split at ha
        · cases ha
        · next leaf =>
          exact .of_absorb ⟨hm, fun source => absurd source leaf, fun _ => rfl⟩ (.inl ha)
      · rw [turn_module idle] at h
        obtain ⟨m, hm, ha⟩ := map_eq_ok h
        split at ha
        · next source =>
          -- the search stands where it stood, with its module pending
          cases ha
          have same : { s with pending := none } = s := by rw [← idle]
          have t : Explores v { s with pending := none } g := (ih hrun).2 m rfl hm source
          rwa [same] at t
        · next leaf =>
          exact .of_absorb ⟨hm, fun source => absurd source leaf, fun _ => rfl⟩
            (.inr ⟨s', ha, fun f => (ih hrun).1 f.pending⟩)
    · intro m pending hm source
      have has : ∀ {deps : List Path}, v.dependencies ⟨s.platform, s.path, s.entry⟩ = .ok deps →
          v.Has s.platform s.entry s.path m deps := by
        intro deps hdeps
        refine ⟨hm, fun _ => hdeps, fun leaf => ?_⟩
        rw [source] at leaf
        cases leaf
      rcases run_succ_ok h with h | ⟨s', h, hrun⟩
      · rw [turn_dependencies pending] at h
        obtain ⟨deps, hdeps, ha⟩ := map_eq_ok h
        exact .of_absorb (has hdeps) (.inl ha)
      · rw [turn_dependencies pending] at h
        obtain ⟨deps, hdeps, ha⟩ := map_eq_ok h
        exact .of_absorb (has hdeps) (.inr ⟨s', ha, fun f => (ih hrun).1 f.pending⟩)

/-- A discovery that succeeds is not broken off. -/
theorem run_of_discover {σ : Type} {r : Resolver σ} {platform : String} {entry : Path} {g : Graph}
    {st : σ} (h : (discover r platform entry st).1 = .ok g) :
    ((start platform entry).run r (r.bound st) st).1 = some (.ok g) := by
  unfold discover at h
  generalize (start platform entry).run r (r.bound st) st = found at h ⊢
  obtain ⟨_ | answer, st'⟩ := found
  · cases h
  · exact congrArg some h

/-- **What a discovery finds is explored.** -/
theorem explores_of_discover {v : Snapshot} {platform : String} {entry : Path} {g : Graph}
    (h : (discover v.resolver platform entry ()).1 = .ok g) :
    Explores v (start platform entry) g :=
  (explores_of_run (run_of_discover h)).1 rfl

/-! ### The graph that is found -/

/-- What is in the graph stays in it. -/
theorem Explores.mem {v : Snapshot} {s : Search} {g : Graph} (ex : Explores v s g) (tidy : s.Tidy)
    {e : Path × List Path} (h : e ∈ s.graph.shallow) : e ∈ g.shallow := by
  induction ex with
  | last =>
    rw [tidy.grown_shallow]
    exact List.mem_append_left _ h
  | more _ f _ ih =>
    refine ih (tidy.follows f) ?_
    rw [f.graph, tidy.grown_shallow]
    exact List.mem_append_left _ h

theorem Tidy.listed_grown {v : Snapshot} {s : Search} {m : Module} {deps : List Path}
    (tidy : s.Tidy) (h : s.graph.Listed v s.platform s.entry)
    (has : v.Has s.platform s.entry s.path m deps) :
    (s.grown m deps).Listed v s.platform s.entry := by
  constructor
  · intro e he
    rw [tidy.grown_shallow] at he
    rcases List.mem_append.mp he with he | he
    · obtain ⟨n, hn, hasn⟩ := h.entries e he
      exact ⟨n, List.mem_append_left _ hn, hasn⟩
    · rw [List.mem_singleton.mp he]
      exact ⟨m, List.mem_append_right _ (List.mem_singleton.mpr rfl), has⟩
  · intro n hn
    rw [tidy.grown_shallow]
    rcases List.mem_append.mp hn with hn | hn
    · obtain ⟨e, he, hasn⟩ := h.modules n hn
      exact ⟨e, List.mem_append_left _ he, hasn⟩
    · rw [List.mem_singleton.mp hn]
      exact ⟨_, List.mem_append_right _ (List.mem_singleton.mpr rfl), has⟩

/-- **The graph says what the snapshot says.** -/
theorem Explores.listed {v : Snapshot} {s : Search} {g : Graph} (ex : Explores v s g)
    (tidy : s.Tidy) (h : s.graph.Listed v s.platform s.entry) :
    g.Listed v s.platform s.entry := by
  induction ex with
  | last has _ => exact tidy.listed_grown h has
  | more has f _ ih =>
    rw [← f.platform, ← f.entry]
    refine ih (tidy.follows f) ?_
    rw [f.platform, f.entry, f.graph]
    exact tidy.listed_grown h has

theorem listed_of_discover {v : Snapshot} {platform : String} {entry : Path} {g : Graph}
    (h : (discover v.resolver platform entry ()).1 = .ok g) : g.Listed v platform entry :=
  (explores_of_discover h).listed (tidy_start platform entry)
    ⟨fun _ h => absurd h List.not_mem_nil, fun _ h => absurd h List.not_mem_nil⟩

/-! ### Resolvers that show a snapshot -/

theorem run_of_showsFrom {σ : Type} {r : Resolver σ} {st : σ} {v : Snapshot}
    (h : r.ShowsFrom st v) (fuel : Nat) (s : Search) :
    (s.run r fuel st).1 = (s.run v.resolver fuel ()).1 := by
  induction fuel generalizing s st with
  | zero => rfl
  | succ fuel ih =>
    obtain ⟨hanswer, h'⟩ := Query.answer_of_showsFrom h s.next
    rw [run, run]
    generalize s.next.answer r st = asked at hanswer h'
    generalize s.next.answer v.resolver () = asked' at hanswer
    obtain ⟨answer, st'⟩ := asked
    obtain ⟨answer', _⟩ := asked'
    cases hanswer
    rcases answer with e | s' | g
    · rfl
    · exact ih h' s'
    · rfl

/-- A discovery finds what the snapshot has. -/
theorem discover_of_showsFrom {σ : Type} {r : Resolver σ} {st : σ} {v : Snapshot}
    (h : r.ShowsFrom st v) (platform : String) (entry : Path) :
    (discover r platform entry st).1 = (discover v.resolver platform entry ()).1 := by
  have hrun := run_of_showsFrom h v.bound (start platform entry)
  rw [discover, discover, h.bound, show v.resolver.bound () = v.bound from rfl]
  generalize (start platform entry).run r v.bound st = found at hrun
  generalize (start platform entry).run v.resolver v.bound () = found' at hrun
  obtain ⟨answer, st'⟩ := found
  obtain ⟨answer', _⟩ := found'
  cases hrun
  cases answer <;> rfl

/-! ### How long a discovery goes on -/

/-- The paths of the files that were taken in are among some paths. -/
def FoundIn (files : List Path) (s : Search) : Prop :=
  ∀ c ∈ Path.meanings (s.graph.shallow.map (·.1)), c ∈ Path.meanings files

section Bound

variable {v : Snapshot} {files : List Path} {s s' : Search} {m : Module} {deps : List Path}

/-- Each file that was taken in is another one. -/
theorem Tidy.length_le (tidy : s.Tidy) (found : s.FoundIn files) :
    s.graph.shallow.length ≤ files.length := by
  have distinct := tidy.distinct
  rw [Path.meanings_append, List.nodup_append] at distinct
  simpa [Path.meanings] using distinct.1.length_le_of_subset found

/-- The file being looked at may be among them too. -/
theorem FoundIn.concat (found : s.FoundIn files) (here : s.path.components ∈ Path.meanings files) :
    Path.meanings (s.graph.shallow.map (·.1) ++ [s.path]) ⊆ Path.meanings files := by
  intro c hc
  rw [Path.meanings_append] at hc
  rcases List.mem_append.mp hc with hc | hc
  · exact found c hc
  · rw [List.mem_singleton.mp hc]
    exact here

theorem FoundIn.follows (found : s.FoundIn files) (tidy : s.Tidy) (f : s.Follows m deps s')
    (here : s.path.components ∈ Path.meanings files) :
    s'.FoundIn files ∧ s'.graph.shallow.length = s.graph.shallow.length + 1 := by
  rw [FoundIn, f.graph, tidy.grown_shallow, List.map_append]
  exact ⟨found.concat here, by simp⟩

/-- The file being looked at is one more. -/
theorem Tidy.length_lt (tidy : s.Tidy) (found : s.FoundIn files)
    (here : s.path.components ∈ Path.meanings files) :
    s.graph.shallow.length < files.length := by
  have distinct := tidy.distinct
  rw [List.append_cons, Path.meanings_append, List.nodup_append] at distinct
  have le := distinct.1.length_le_of_subset (found.concat here)
  refine Nat.lt_of_succ_le ?_
  simpa [Path.meanings] using le

/-- A search over few files is not broken off: the questions that are left are two for each file
that was not taken in, of which one has been asked where a module is known, and one more that ends
the search. -/
theorem run_isSome {v : Snapshot} {files : List Path}
    (within : ∀ {p : Path} {m : Module}, v.module p = .ok m → p.components ∈ Path.meanings files)
    (fuel : Nat) {s : Search} (tidy : s.Tidy) (found : s.FoundIn files) :
    (s.pending = none → 2 * files.length + 1 ≤ fuel + 2 * s.graph.shallow.length →
      (s.run v.resolver fuel ()).1.isSome = true) ∧
    ∀ m, s.pending = some m → v.module s.path = .ok m →
      2 * files.length ≤ fuel + 2 * s.graph.shallow.length →
      (s.run v.resolver fuel ()).1.isSome = true := by
  induction fuel generalizing s with
  | zero =>
    refine ⟨fun _ enough => ?_, fun m _ hm enough => ?_⟩
    · have := tidy.length_le found
      omega
    · have := tidy.length_lt found (within hm)
      omega
  | succ fuel ih =>
    -- after a file is taken in, two questions less are needed
    have rest : ∀ {m : Module} {deps : List Path}, s.path.components ∈ Path.meanings files →
        2 * files.length ≤ fuel + 1 + 2 * s.graph.shallow.length →
        (resume v fuel (.ok (s.absorb m deps))).isSome = true := by
      intro m deps here enough
      rcases s.absorb_cases m deps with ⟨h, -⟩ | ⟨s', h, f⟩
      · rw [h]
        rfl
      · obtain ⟨found', length⟩ := found.follows tidy f here
        rw [h]
        exact (ih (tidy.follows f) found').1 f.pending (by omega)
    rw [run_succ]
    refine ⟨fun idle enough => ?_, fun m pending hm enough => ?_⟩
    · rw [turn_module idle]
      cases hm : v.module s.path with
      | error e => rfl
      | ok m =>
        cases source : m.isSource with
        | true =>
          have tidy' : Tidy { s with pending := some m } := ⟨tidy.distinct, tidy.known⟩
          simp only [Except.map, source, if_true]
          exact (ih tidy' found).2 m rfl hm (by show _ ≤ fuel + 2 * s.graph.shallow.length; omega)
        | false =>
          simp only [Except.map, source, Bool.false_eq_true, if_false]
          exact rest (within hm) (by omega)
    · rw [turn_dependencies pending]
      cases v.dependencies ⟨s.platform, s.path, s.entry⟩ with
      | error e => rfl
      | ok deps => exact rest (within hm) enough

end Bound

end Search

/-- **A discovery in a tree is never broken off.** -/
theorem Tree.discovery_ends (t : Tree) (platform : String) (entry : Path) :
    ((Search.start platform entry).run Tree.resolver t.bound t).1.isSome = true := by
  have within : ∀ {p : Path} {m : Module}, t.snapshot.module p = .ok m →
      p.components ∈ Path.meanings (t.files.map (·.1)) := by
    intro p m h
    obtain ⟨-, file, hfile, -⟩ := askModule_ok_iff.mp h
    obtain ⟨k, hk, hkp⟩ := Assoc.mem_of_get? hfile
    rw [← Path.beq_iff.mp hkp]
    exact List.mem_map_of_mem (List.mem_map_of_mem hk)
  have ends := (Search.run_isSome within t.bound (Search.tidy_start platform entry)
    (fun _ h => absurd h List.not_mem_nil)).1 rfl (by simp [bound, Search.start])
  rwa [← Search.run_of_showsFrom t.showsFrom] at ends

/-! ### Looking up what was listed -/

namespace Graph.Listed

variable {v : Snapshot} {platform : String} {entry p : Path} {g : Graph}

/-- The kind of the module at a path is what the snapshot says, however the path is spelled. -/
theorem kind_eq (h : g.Listed v platform entry) {q : Path} (hqp : (q == p) = true) {m n : Module}
    (hm : g.moduleAt? p = some m) (hn : v.module q = .ok n) : n.kind = m.kind := by
  obtain ⟨hmem, hpath⟩ := Graph.mem_of_moduleAt? hm
  obtain ⟨e, -, has⟩ := h.modules m hmem
  have heq : (e.1 == q) = true := by
    have hme := v.path_of_module has.module
    exact BEq.trans (BEq.trans (BEq.symm hme) hpath) (BEq.symm hqp)
  obtain ⟨n', hn', -, hkind⟩ := v.module_congr heq has.module
  rw [hn] at hn'
  cases hn'
  exact hkind

/-- What the graph lists for a source path is what the snapshot lists there. -/
theorem dependencies_eq (h : g.Listed v platform entry) {m : Module} {cached : List Path}
    (hm : g.moduleAt? p = some m) (hd : g.dependencies? p = some cached) (kind : m.kind = .source) :
    ∃ deps, v.dependencies ⟨platform, p, entry⟩ = .ok deps ∧ (deps == cached) = true := by
  obtain ⟨q, hmem, hqp⟩ := Assoc.mem_of_get? hd
  obtain ⟨n, -, has⟩ := h.entries _ hmem
  have source : n.isSource = true := by
    rw [Module.isSource, h.kind_eq hqp hm has.module, kind]
    rfl
  exact v.dependencies_congr hqp (has.source source)

/-- A path that is listed can be looked up. -/
theorem lookup (h : g.Listed v platform entry) {deps : List Path} (hmem : (p, deps) ∈ g.shallow) :
    ∃ m cached, g.moduleAt? p = some m ∧ g.dependencies? p = some cached := by
  obtain ⟨n, hn, has⟩ := h.entries _ hmem
  have contained : g.containsPath p = true :=
    List.any_eq_true.mpr ⟨n, hn, v.path_of_module has.module⟩
  rw [← Graph.isSome_moduleAt?, Option.isSome_iff_exists] at contained
  obtain ⟨m, hm⟩ := contained
  obtain ⟨cached, hd⟩ := Assoc.exists_get?_of_mem hmem
  exact ⟨m, cached, hm, hd⟩

end Graph.Listed

end HotReload
