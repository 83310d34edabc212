import HotReload.Proofs.Graph.WellFormed
import HotReload.Proofs.Session.Convergence

/-!
# The modules that an edit affects

A source file of a session's program is edited, while all other files of the program stay what the
session's graph says.  Then the program can have new modules, but each of them is reached through
the edited file alone.  So the edited file stays part of the program, and the depth-first walk
leaves all new modules before it, also where they import it back.

* `Session.gate_of_kept`: the edited file is the gate to all that is new.
* `Session.reaches_of_kept`: the edited file is still reached.
* `Graph.Affected`: the new modules and the edited one, dependencies first.
* `Session.react_affected`: the reaction to the edit, where the edited file still answers.
* `demoted_unanswered`: a file that is code no longer is asked for its dependencies all the same,
  and where it has no answer nothing is rebuilt.
-/

namespace HotReload

/-! ### What an edit leaves as it is -/

/-- What a well-formed graph that was discovered lists for a path is what the snapshot has there,
however the path is spelled. -/
theorem Graph.Listed.children {v : Snapshot} {platform : String} {entry : Path} {g : Graph}
    (listed : g.Listed v platform entry) (formed : g.WellFormed entry) {p : Path}
    (known : g.containsPath p = true) :
    ∃ n, v.module p = .ok n ∧ (n.kind ≠ .source → children g.shallow p = []) ∧
      (n.kind = .source → ∃ deps, v.dependencies ⟨platform, p, entry⟩ = .ok deps ∧
        (deps == children g.shallow p) = true) := by
  rw [formed.containsPath_eq] at known
  obtain ⟨e, mem, same⟩ := List.any_eq_true.mp known
  obtain ⟨m, -, has⟩ := listed.entries e mem
  obtain ⟨n, found, -, kind⟩ := v.module_congr same has.module
  have here : Graph.children g.shallow p = e.2 := children_of_mem formed.distinct mem same
  refine ⟨n, found, fun other => ?_, fun source => ?_⟩
  · rw [here]
    exact has.leaf (by simpa [Module.isSource, ← kind] using other)
  · rw [here]
    exact v.dependencies_congr same (has.source (by simpa [Module.isSource, ← kind] using source))

/-- In a snapshot, the files of a session's graph but for one are what the graph says: where they
are found they have the same kind, and no source file has other dependencies. -/
structure Session.KeptBut (v : Snapshot) (s : Session) (edited : Path) : Prop where
  kind : ∀ m ∈ s.graph.modules, (m.path == edited) = false →
    ∀ n, v.module m.path = .ok n → n.kind = m.kind
  dependencies : ∀ p, (p == edited) = false → ¬ s.Differs v p

section Kept

variable {v : Snapshot} {s : Session} {edited : Path} {g : Graph}

/-- Where a source file has no other dependencies, the two graphs list the same for it. -/
theorem Session.children_of_not_differs {p : Path} (old : s.graph.WellFormed s.entry)
    {m : Module} (module : s.graph.moduleAt? p = some m) (source : m.kind = .source)
    (same : ¬ s.Differs v p) {deps : List Path}
    (found : v.dependencies ⟨s.platform, p, s.entry⟩ = .ok deps) :
    (deps == Graph.children s.graph.shallow p) = true := by
  obtain ⟨_, cached, -, listed, here, -⟩ := old.lookup (Graph.containsPath_of_moduleAt? module)
  rw [here]
  by_contra differs
  exact same (.intro module source listed found (Bool.not_eq_true _ ▸ differs))

/-- A file that was not edited has the dependencies that it had. -/
theorem Session.KeptBut.children (kept : s.KeptBut v edited) (old : s.graph.WellFormed s.entry)
    (new : g.WellFormed s.entry) (listed : g.Listed v s.platform s.entry) {p : Path}
    (other : (p == edited) = false) (before : s.graph.containsPath p = true)
    (after : g.containsPath p = true) :
    (Graph.children g.shallow p == Graph.children s.graph.shallow p) = true := by
  obtain ⟨m, cached, module, -, here, leaf⟩ := old.lookup before
  obtain ⟨mem, path⟩ := Graph.mem_of_moduleAt? module
  obtain ⟨n, found, data, code⟩ := listed.children new after
  obtain ⟨n', found', -, kind'⟩ := v.module_congr (BEq.symm path) found
  have elsewhere : (m.path == edited) = false := by rw [BEq.congr_left path, other]
  have kind : n.kind = m.kind := by rw [← kind', kept.kind m mem elsewhere n' found']
  by_cases source : m.kind = .source
  · obtain ⟨deps, current, same⟩ := code (kind.trans source)
    have cached := children_of_not_differs old module source (kept.dependencies p other) current
    exact BEq.trans (BEq.symm same) cached
  · rw [here, leaf source, data (kind ▸ source)]
    exact BEq.rfl

/-- What a file that was not edited depends on was part of the program before. -/
theorem Session.KeptBut.contains_of_child (kept : s.KeptBut v edited)
    (old : s.graph.WellFormed s.entry) (new : g.WellFormed s.entry)
    (listed : g.Listed v s.platform s.entry) {p d : Path} (other : (p == edited) = false)
    (before : s.graph.containsPath p = true) (child : d ∈ Graph.children g.shallow p) :
    s.graph.containsPath d = true := by
  obtain ⟨e, mem, same, -⟩ := Graph.exists_of_mem_children child
  have after : g.containsPath p = true := by
    rw [new.containsPath_eq]
    exact List.any_eq_true.mpr ⟨e, mem, same⟩
  have alike := Path.beq_iff_meanings.mp (kept.children old new listed other before after)
  have there : d.components ∈ Path.meanings (Graph.children s.graph.shallow p) := by
    rw [← alike]
    exact List.mem_map_of_mem child
  obtain ⟨c, here, equal⟩ := List.mem_map.mp there
  rw [← Graph.containsPath_congr (Path.beq_iff.mpr equal), old.closed' here]

/-- **The edited file is the gate** to all modules that are new. -/
theorem Session.gate_of_kept (kept : s.KeptBut v edited) (old : s.graph.WellFormed s.entry)
    (new : g.WellFormed s.entry) (listed : g.Listed v s.platform s.entry)
    (known : s.graph.containsPath edited = true) :
    Graph.Gate g.shallow s.entry edited fun p => s.graph.containsPath p = false where
  congr same fresh := by rw [← Graph.containsPath_congr same, fresh]
  outer fresh := by
    rw [old.contains_iff.mpr (.here BEq.rfl)] at fresh
    cases fresh
  open_ fresh := by
    rw [known] at fresh
    cases fresh
  through {p d} child fresh before := by
    by_contra other
    have there := kept.contains_of_child old new listed (Bool.not_eq_true _ ▸ other)
      (Bool.not_eq_false _ ▸ before) child
    rw [there] at fresh
    cases fresh

/-- **The edited file is still reached:** the way to it does not come through it. -/
theorem Session.reaches_of_kept (kept : s.KeptBut v edited) (old : s.graph.WellFormed s.entry)
    (new : g.WellFormed s.entry) (listed : g.Listed v s.platform s.entry)
    (known : s.graph.containsPath edited = true) : g.containsPath edited = true := by
  have way : ∀ {p : Path}, Graph.Reaches s.graph.shallow s.entry p →
      g.containsPath p = true ∨ g.containsPath edited = true := by
    intro p reached
    induction reached with
    | here same => exact .inl (new.contains_iff.mpr (.here same))
    | @further p d q below child same ih =>
      rcases ih with after | done
      · by_cases here : (p == edited) = true
        · exact .inr (by rw [← Graph.containsPath_congr here, after])
        · have alike := Path.beq_iff_meanings.mp
            (kept.children old new listed (Bool.not_eq_true _ ▸ here) (old.contains_iff.mpr below)
              after)
          have there : d.components ∈ Path.meanings (Graph.children g.shallow p) := by
            rw [alike]
            exact List.mem_map_of_mem child
          obtain ⟨c, mem, equal⟩ := List.mem_map.mp there
          refine .inl (new.contains_iff.mpr ((new.contains_iff.mp after).further mem ?_))
          exact BEq.trans (Path.beq_iff.mpr equal) same
      · exact .inr done
  exact (way (old.contains_iff.mp known)).elim id id

/-- **An edit that leaves the dependencies as they are** brings no new modules. -/
theorem Session.addedSince_of_not_differs (kept : s.KeptBut v edited)
    (old : s.graph.WellFormed s.entry) (new : g.WellFormed s.entry)
    (listed : g.Listed v s.platform s.entry) {m : Module}
    (module : s.graph.moduleAt? edited = some m) (source : m.kind = .source)
    (same : ¬ s.Differs v edited) : g.addedSince s.graph = [] := by
  have within : ∀ {p : Path}, Graph.Reaches g.shallow s.entry p →
      s.graph.containsPath p = true := by
    intro p reached
    induction reached with
    | here equal => exact old.contains_iff.mpr (.here equal)
    | @further p d q below child equal ih =>
      rw [← Graph.containsPath_congr equal]
      by_cases here : (p == edited) = true
      · rw [Graph.children_congr here] at child
        have after := new.contains_iff.mpr (below.same_right here)
        obtain ⟨n, -, data, code⟩ := listed.children new after
        by_cases kind : n.kind = .source
        · obtain ⟨deps, found, alike⟩ := code kind
          have cached := children_of_not_differs old module source same found
          have lists := Path.beq_iff_meanings.mp (BEq.trans (BEq.symm alike) cached)
          have there : d.components ∈ Path.meanings (Graph.children s.graph.shallow edited) := by
            rw [← lists]
            exact List.mem_map_of_mem child
          obtain ⟨c, mem, spelled⟩ := List.mem_map.mp there
          rw [← Graph.containsPath_congr (Path.beq_iff.mpr spelled), old.closed' mem]
        · rw [data kind] at child
          cases child
      · exact kept.contains_of_child old new listed (Bool.not_eq_true _ ▸ here) ih child
  refine List.filter_eq_nil_iff.mpr fun n mem => ?_
  rw [within (new.contains_iff.mp (Graph.containsPath_of_mem mem))]
  decide

end Kept

/-! ### Dependencies first, the edited module last -/

/-- The modules to be sent for an edit: those that are new and the edited one, which goes last, each
once, and each behind what it imports unless that leads back to it. -/
structure Graph.Affected (before after : Graph) (edited : Module) (modules : List Module) :
    Prop where
  distinct : (Path.meanings (modules.map (·.path))).Nodup
  mem_iff : ∀ m, m ∈ modules ↔ m ∈ after.addedSince before ∨ m = edited
  last : ∃ earlier, modules = earlier ++ [edited]
  ordered : ∀ u ∈ modules, ∀ v ∈ modules,
    (∃ d ∈ children after.shallow u.path, (d == v.path) = true) →
    ¬ Reaches after.shallow v.path u.path → [v, u].Sublist modules

/-- Where nothing is new, the edited module is sent alone. -/
theorem Graph.Affected.alone {before after : Graph} (edited : Module)
    (none : after.addedSince before = []) : Affected before after edited [edited] where
  distinct := List.nodup_singleton _
  mem_iff m := by simp [none]
  last := ⟨[], rfl⟩
  ordered u memu v memv _ apart := by
    rw [List.mem_singleton.mp memu, List.mem_singleton.mp memv] at apart
    exact absurd (.here BEq.rfl) apart

/-- The new modules and one that is not new have paths of their own. -/
theorem Graph.WellFormed.nodup_added {before after : Graph} {entry : Path} {edited : Module}
    (formed : after.WellFormed entry) (known : before.containsPath edited.path = true) :
    (Path.meanings ((after.addedSince before ++ [edited]).map (·.path))).Nodup := by
  rw [List.map_append, Path.meanings_append, List.nodup_append]
  refine ⟨formed.distinct_paths.sublist ((List.filter_sublist.map _).map _),
    List.nodup_singleton _, fun c listed c' listed' same => ?_⟩
  obtain ⟨q, mem, rfl⟩ := List.mem_map.mp listed
  obtain ⟨m, new, rfl⟩ := List.mem_map.mp mem
  rw [List.mem_singleton.mp listed'] at same
  have fresh := (mem_addedSince.mp new).2
  rw [containsPath_congr (Path.beq_iff.mpr same), known] at fresh
  cases fresh

/-- **Sorting by rank** puts the edited module last, where it is the gate to what is new. -/
theorem Graph.affected_of_gate {before after : Graph} {entry : Path} {edited : Module}
    (formed : after.WellFormed entry) (mem : edited ∈ after.modules)
    (known : before.containsPath edited.path = true)
    (gate : Gate after.shallow entry edited.path fun p => before.containsPath p = false) :
    Affected before after edited
      (orderLeafFirst (after.addedSince before ++ [edited]) (rank entry after.shallow)) := by
  have ranks := ranks_rank formed.first
  have sorted := orderLeafFirst_pairwise (after.addedSince before ++ [edited])
    (rank entry after.shallow)
  have members : ∀ m, m ∈ orderLeafFirst (after.addedSince before ++ [edited])
      (rank entry after.shallow) ↔ m ∈ after.addedSince before ∨ m = edited := fun m => by
    rw [mem_orderLeafFirst, List.mem_append, List.mem_singleton]
  have inside : ∀ m, m ∈ after.addedSince before ∨ m = edited →
      Reaches after.shallow entry m.path := by
    rintro m (new | rfl)
    · exact formed.contains_iff.mp (containsPath_of_mem (mem_addedSince.mp new).1)
    · exact formed.contains_iff.mp (containsPath_of_mem mem)
  have distinct := formed.nodup_added known
  have perm := orderLeafFirst_perm (after.addedSince before ++ [edited]) (rank entry after.shallow)
  replace distinct := ((perm.map Module.path).map Path.components).nodup_iff.mpr distinct
  generalize orderLeafFirst (after.addedSince before ++ [edited]) (rank entry after.shallow) = order
    at sorted members distinct
  refine ⟨distinct, members, ?_, fun u memu v memv ⟨d, child, same⟩ apart => ?_⟩
  · obtain ⟨earlier, later, rfl⟩ := List.append_of_mem ((members edited).mpr (.inr rfl))
    cases later with
    | nil => exact ⟨earlier, rfl⟩
    | cons m later =>
      -- behind the edited module there is neither a new one nor the edited one again
      have order := (List.pairwise_cons.mp (List.pairwise_append.mp sorted).2.1).1 m
        List.mem_cons_self
      have listed := (members m).mp
        (List.mem_append_right _ (List.mem_cons_of_mem _ List.mem_cons_self))
      rcases listed with new | rfl
      · have less := ranks.place_lt_of_gate gate (inside edited (.inr rfl)) (inside m (.inl new))
          (mem_addedSince.mp new).2
        exact absurd order (Nat.not_le.mpr less)
      · rw [List.map_append, List.map_append, List.nodup_append] at distinct
        exact absurd List.mem_cons_self (List.nodup_cons.mp distinct.2.1).1
  · exact sublist_of_place_lt sorted memv memu
      (ranks.place_lt_of_child (inside u ((members u).mp memu)) child same apart)

/-! ### The reaction to an edit -/

/-- What is answered to a change with a verdict. -/
def Session.answered : Option Verdict → Except UpdateFault Reaction
  | some (.ok (_, reaction)) => .ok reaction
  | some (.error fault) => .error fault
  | none => .error (.internal "The discovery of the graph was broken off")

theorem Session.react_answer {σ : Type} (r : Resolver σ) (s : Session) (change : Change) (st : σ) :
    (s.react r change st).1 =
      answered ((Progress.start s change).run r s change (r.bound st + 1) st).1 := by
  unfold react
  rcases (Progress.start s change).run r s change (r.bound st + 1) st with
    ⟨_ | fault | ⟨g, reaction⟩, st'⟩ <;> rfl

/-- While a snapshot is shown, a change is reacted to as on the snapshot. -/
theorem Session.react_of_snapshot {σ : Type} {r : Resolver σ} {v : Snapshot} {st : σ}
    (shows_ : r.ShowsFrom st v) (s : Session) (change : Change) :
    (s.react r change st).1 = (s.react v.resolver change ()).1 := by
  have shown := Progress.run_of_showsFrom shows_ s change (v.bound + 1) (.start s change)
  rw [react_answer, react_answer, shows_.bound, shown.1]
  rfl

section Edited

variable {v : Snapshot} {s : Session} {change : Change} {m : Module}

/-- A source file with the dependencies that it had is sent alone. -/
theorem Session.react_of_same {deps : List Path} (modified : change.isDeletion = false)
    (module : s.graph.moduleAt? change.path = some m) (source : m.kind = .source)
    {cached : List Path} (listed : s.graph.dependencies? change.path = some cached)
    (found : v.dependencies ⟨s.platform, change.path, s.entry⟩ = .ok deps)
    (same : (deps == cached) = true) :
    (s.react v.resolver change ()).1 = .ok (.rebuild [m]) := by
  rw [react_answer, Progress.start_source modified module source listed,
    Progress.run_dependencies]
  simp only [found, listed, Option.getD_some, same, if_true, Progress.run_settled]
  rfl

/-- A source file whose dependencies cannot be looked up makes the reaction fail. -/
theorem Session.react_of_fault {cached : List Path} {fault : ResolveFault}
    (modified : change.isDeletion = false) (module : s.graph.moduleAt? change.path = some m)
    (source : m.kind = .source) (listed : s.graph.dependencies? change.path = some cached)
    (looked : v.dependencies ⟨s.platform, change.path, s.entry⟩ = .error fault) :
    (s.react v.resolver change ()).1 = .error (.ofResolve fault) := by
  rw [react_answer, Progress.start_source modified module source listed,
    Progress.run_dependencies]
  simp only [looked, Progress.run_settled]
  rfl

/-- A source file with other dependencies is sent with what is new. -/
theorem Session.react_of_other {g : Graph} (modified : change.isDeletion = false)
    (differs : s.Differs v change.path)
    (discovered : (Search.discover v.resolver s.platform s.entry ()).1 = .ok g) :
    (s.react v.resolver change ()).1 = .ok (Progress.regraphed s change g) := by
  obtain ⟨module, source, listed, found, other⟩ := differs
  have search := Search.run_of_discover discovered
  rw [react_answer, Progress.start_source modified module source listed,
    Progress.run_dependencies]
  simp only [found, listed, Option.getD_some, other, Bool.false_eq_true, if_false,
    Progress.run_graph]
  generalize (Search.start s.platform s.entry).run v.resolver (v.resolver.bound ()) () = run
    at search
  obtain ⟨answer, _⟩ := run
  cases search
  rfl

end Edited

/-- In a snapshot, a file that is code no longer still answers for its dependencies. -/
def Session.StillAnswers (v : Snapshot) (s : Session) (p : Path) : Prop :=
  ∀ n, v.module p = .ok n → n.kind ≠ .source →
    ∃ deps, v.dependencies ⟨s.platform, p, s.entry⟩ = .ok deps

/-- A file of a discovered graph answers for its dependencies, or is code no longer and silent. -/
theorem Graph.Listed.answers {v : Snapshot} {s : Session} {g : Graph} {p : Path}
    (listed : g.Listed v s.platform s.entry) (formed : g.WellFormed s.entry)
    (known : g.containsPath p = true) (answers : s.StillAnswers v p) :
    ∃ deps, v.dependencies ⟨s.platform, p, s.entry⟩ = .ok deps := by
  obtain ⟨n, found, -, code⟩ := listed.children formed known
  by_cases kind : n.kind = .source
  · obtain ⟨deps, current, -⟩ := code kind
    exact ⟨deps, current⟩
  · exact answers n found kind

/-- **Exactly the affected modules.**  A source file of a well-formed graph is edited, the other
files of the graph are what they were, and a discovery succeeds.  The edited file is asked for its
dependencies, also where it is code no longer.  With an answer, the reaction is to rebuild the new
modules and the edited one, dependencies first and the edited one last; it is rebuilt alone where it
has the dependencies that it had.  Without one, the reaction is the fault. -/
theorem Session.react_affected {σ : Type} {r : Resolver σ} {st : σ} {v : Snapshot} {s : Session}
    {change : Change} {m : Module} {g : Graph} (shows_ : r.ShowsFrom st v)
    (formed : s.graph.WellFormed s.entry) (module : s.graph.moduleAt? change.path = some m)
    (source : m.kind = .source) (modified : change.isDeletion = false)
    (kept : s.KeptBut v change.path)
    (discovered : (Search.discover r s.platform s.entry st).1 = .ok g) :
    (s.StillAnswers v change.path →
      ∃ edited modules, (s.react r change st).1 = .ok (.rebuild modules) ∧
        (edited.path == change.path) = true ∧ Graph.Affected s.graph g edited modules ∧
        (s.Differs v change.path → g.moduleAt? change.path = some edited) ∧
        (¬ s.Differs v change.path → modules = [m])) ∧
    (¬ s.StillAnswers v change.path →
      ∃ fault, v.dependencies ⟨s.platform, change.path, s.entry⟩ = .error fault ∧
        (s.react r change st).1 = .error (.ofResolve fault)) := by
  have new := Search.wellFormed_of_discover shows_ discovered
  have known := Graph.containsPath_of_moduleAt? module
  have answer := react_of_snapshot shows_ s change
  rw [Search.discover_of_showsFrom shows_] at discovered
  have listed := Search.listed_of_discover discovered
  have still := reaches_of_kept kept formed new listed known
  obtain ⟨_, cached, -, cachedList, here, -⟩ := formed.lookup known
  rw [answer]
  constructor
  · intro answers
    by_cases differs : s.Differs v change.path
    · obtain ⟨edited, found⟩ := Option.isSome_iff_exists.mp
        ((Graph.isSome_moduleAt? g change.path).trans still)
      obtain ⟨mem, path⟩ := Graph.mem_of_moduleAt? found
      have gate := (gate_of_kept kept formed new listed known).spelled (BEq.symm path)
      have before : s.graph.containsPath edited.path = true := by
        rw [Graph.containsPath_congr path, known]
      refine ⟨edited, _, ?_, path, Graph.affected_of_gate new mem before gate, fun _ => found,
        fun same => absurd differs same⟩
      rw [react_of_other modified differs discovered, Progress.regraphed, found]
    · obtain ⟨deps, current⟩ := listed.answers new still answers
      have same := children_of_not_differs formed module source differs current
      rw [here] at same
      exact ⟨m, [m], react_of_same modified module source cachedList current same,
        (Graph.mem_of_moduleAt? module).2,
        .alone m (addedSince_of_not_differs kept formed new listed module source differs),
        fun other => absurd other differs, fun _ => rfl⟩
  · intro silent
    cases looked : v.dependencies ⟨s.platform, change.path, s.entry⟩ with
    | ok deps => exact absurd (fun _ _ _ => ⟨deps, looked⟩) silent
    | error fault => exact ⟨fault, rfl, react_of_fault modified module source cachedList looked⟩

namespace Sample

def middle : Path := ⟨"/middle"⟩

def leaf : Path := ⟨"/leaf"⟩

/-- The second file imports a new file.  This imports it back, and imports another new file, which
imports it and the entry file, and a third one besides. -/
def knotted : Tree :=
  (((tree.add newcomer .source [part, middle] "").add middle .source [newcomer, entry, leaf] "").add
    leaf .source [] "").setDependencies part [newcomer]

/-- The paths of the modules that are to be rebuilt. -/
def rebuilt : Reaction → List String
  | .rebuild modules => modules.map (·.path.text)
  | _ => []

/-- Whether the files of a session's graph are what they were, but for one. -/
theorem keptBut_of_tree {t : Tree} {s : Session} {edited : Path}
    (kinds : ∀ m ∈ s.graph.modules, (m.path == edited) = false →
      (Tree.askModule m.path t).1.toOption.map (·.kind) = some m.kind)
    (lists : ∀ e ∈ s.graph.shallow, (e.1 == edited) = false →
      ((Tree.askDependencies ⟨s.platform, e.1, s.entry⟩ t).1.toOption == some e.2) = true) :
    s.KeptBut t.snapshot edited where
  kind m mem other n here := by
    have same := kinds m mem other
    have there : (Tree.askModule m.path t).1 = .ok n := here
    rw [there] at same
    exact Option.some.inj same
  dependencies p other differs := by
    obtain ⟨-, -, listed, current, differs⟩ := differs
    obtain ⟨k, mem, spelled⟩ := Assoc.mem_of_get? listed
    obtain ⟨deps', there, alike⟩ := t.snapshot.dependencies_congr (BEq.symm spelled) current
    have same := lists _ mem (by rw [BEq.congr_left spelled]; exact other)
    have asked : (Tree.askDependencies ⟨s.platform, k, s.entry⟩ t).1 = .ok deps' := there
    rw [asked] at same
    have equal : (deps' == _) = true := same
    rw [← BEq.congr_left alike, equal] at differs
    cases differs

theorem client_wellFormed : client.session.graph.WellFormed client.session.entry := by
  have seeds : (Search.discover Tree.resolver "ios" entry tree).1.toOption.isSome = true := by
    decide +kernel
  exact Search.wellFormed_of_discover tree.showsFrom (eq_ok_getD seeds {})

/-- All new files are sent, and the edited one last. -/
theorem knotted_affected : ∃ g,
    (Search.discover Tree.resolver client.session.platform client.session.entry knotted).1 = .ok g ∧
    ∃ edited modules, (client.session.react Tree.resolver edit knotted).1 = .ok (.rebuild modules) ∧
      rebuilt (.rebuild modules) = ["/leaf", "/middle", "/new", "/part"] ∧
      Graph.Affected client.session.graph g edited modules := by
  have facts :
      (Search.discover Tree.resolver "ios" entry knotted).1.toOption.isSome = true ∧
      (client.session.graph.moduleAt? part).map (·.kind) = some .source ∧
      (∀ m ∈ client.session.graph.modules, (m.path == part) = false →
        (Tree.askModule m.path knotted).1.toOption.map (·.kind) = some m.kind) ∧
      (∀ e ∈ client.session.graph.shallow, (e.1 == part) = false →
        ((Tree.askDependencies ⟨"ios", e.1, entry⟩ knotted).1.toOption == some e.2) = true) ∧
      (Tree.askDependencies ⟨"ios", part, entry⟩ knotted).1.toOption.isSome = true ∧
      (client.session.react Tree.resolver edit knotted).1.toOption.map rebuilt =
        some ["/leaf", "/middle", "/new", "/part"] := by
    decide +kernel
  obtain ⟨finds, kind, kinds, lists, looked, sent⟩ := facts
  obtain ⟨m, module, source⟩ := Option.map_eq_some_iff.mp kind
  have found : (Search.discover Tree.resolver client.session.platform client.session.entry
      knotted).1 = .ok _ := eq_ok_getD finds {}
  have answers : client.session.StillAnswers knotted.snapshot edit.path :=
    fun _ _ _ => ⟨_, eq_ok_getD looked []⟩
  have here : client.session.graph.moduleAt? edit.path = some m := module
  obtain ⟨edited, modules, answer, -, affected, -, -⟩ :=
    (Session.react_affected knotted.showsFrom client_wellFormed here source rfl
      (keptBut_of_tree kinds lists) found).1 answers
  rw [answer] at sent
  exact ⟨_, found, edited, modules, answer, Option.some.inj sent, affected⟩

/-- The second file is data from now on, and cannot be read. -/
def demoted : Tree := (tree.add part .json [] "").fail part (.other "disk")

/-- **Nothing may be rebuilt**: a file that is code no longer is not asked for its dependencies by a
discovery, which succeeds; the reaction to its edit does ask, and fails. -/
theorem demoted_unanswered :
    ¬ ∀ (t : Tree) (s : Session) (change : Change) (m : Module) (g : Graph),
      s.graph.WellFormed s.entry → s.graph.moduleAt? change.path = some m → m.kind = .source →
      change.isDeletion = false → s.KeptBut t.snapshot change.path →
      (∀ n ∈ s.graph.modules, (n.path == change.path) = false → t.idOf? n.path = some n.id) →
      (Search.discover Tree.resolver s.platform s.entry t).1 = .ok g →
      ∃ modules, (s.react Tree.resolver change t).1 = .ok (.rebuild modules) := by
  intro claim
  have facts :
      (Search.discover Tree.resolver "ios" entry demoted).1.toOption.isSome = true ∧
      (client.session.graph.moduleAt? part).map (·.kind) = some .source ∧
      (∀ m ∈ client.session.graph.modules, (m.path == part) = false →
        (Tree.askModule m.path demoted).1.toOption.map (·.kind) = some m.kind) ∧
      (∀ e ∈ client.session.graph.shallow, (e.1 == part) = false →
        ((Tree.askDependencies ⟨"ios", e.1, entry⟩ demoted).1.toOption == some e.2) = true) ∧
      (∀ n ∈ client.session.graph.modules, (n.path == part) = false →
        demoted.idOf? n.path = some n.id) ∧
      (client.session.react Tree.resolver edit demoted).1.toOption.isSome = false := by
    decide +kernel
  obtain ⟨finds, kind, kinds, lists, ids, silent⟩ := facts
  obtain ⟨m, module, source⟩ := Option.map_eq_some_iff.mp kind
  obtain ⟨modules, answer⟩ := claim demoted client.session edit m _ client_wellFormed module source
    rfl (keptBut_of_tree kinds lists) ids (eq_ok_getD finds {})
  rw [answer] at silent
  cases silent

end Sample

end HotReload
