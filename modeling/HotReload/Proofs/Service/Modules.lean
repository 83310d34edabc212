import HotReload.Proofs.Graph.Lookup
import HotReload.Proofs.Project.Requires
import HotReload.Proofs.Service.Run

/-!
# The modules of a service

A module comes into a service as an answer of the resolver.  It goes with a discovery into a graph,
with the graph into a session, and with a change into an order to build; it is never made up on the
way.  So over a project, all modules that a service has at hand have the numbers of the project's
table.

* `Connection.handle_modules`, `Service.enrol_modules`, `Service.worked_modules`: where modules go.
* `Search.knows_next`, `Probe.knows_next`: where they come from.
* `Worker.Does.knows`: a step of a worker over a project.
-/

namespace HotReload

/-! ### Modules at hand -/

/-- The modules of a discovery. -/
def Search.modules (s : Search) : List Module := s.graph.modules ++ s.pending.toList

/-- The modules with which a discovery goes on, or that it found. -/
def Search.found : Except ResolveFault (Search ⊕ Graph) → List Module
  | .error _ => []
  | .ok (.inl s) => s.modules
  | .ok (.inr g) => g.modules

/-- The modules of a probe. -/
def Probe.modules : Probe → List Module
  | .dependencies m => [m]
  | .graph search => search.modules

/-- The modules of a reaction that are to be rebuilt. -/
def Reaction.modules : Reaction → List Module
  | .rebuild modules => modules
  | .irrelevant | .deleted _ => []

/-- The modules with which a reaction is being found, or that it brings. -/
def Progress.modules : Progress → List Module
  | .probing probe => probe.modules
  | .settled (.error _) => []
  | .settled (.ok (g, reaction)) => g.modules ++ reaction.modules

/-- The modules that an order names: those to build and those of the program around them. -/
def BuildJob.named (job : BuildJob) : List Module := job.modules ++ job.resolution.modules

/-- The modules of a cycle. -/
def Cycle.modules : Cycle → List Module
  | .probing _ probe => probe.modules
  | .ordering job | .building job => job.named

/-- The modules of a connection: those of its session and those of its cycle. -/
def Connection.modules (c : Connection) : List Module :=
  c.session.graph.modules ++ c.cycle.toList.flatMap Cycle.modules

/-- The modules of all clients. -/
def Service.modules (s : Service) : List Module := s.workers.flatMap (·.2.connection.modules)

/-! ### Discoveries and reactions -/

theorem Search.absorb_modules (s : Search) (m : Module) (deps : List Path) :
    found (.ok (s.absorb m deps)) ⊆ s.graph.modules ++ [m] := by
  unfold absorb
  simp only
  split
  · exact List.Subset.refl _
  · rw [found, modules, Option.toList_none, List.append_nil]
    exact List.Subset.refl _

/-- What a new graph has rebuilt are modules of it. -/
theorem Progress.regraphed_modules (s : Session) (change : Change) (g : Graph) :
    (Progress.settled (.ok (g, regraphed s change g))).modules ⊆ g.modules := by
  refine List.append_subset.mpr ⟨List.Subset.refl _, ?_⟩
  unfold regraphed
  split
  · exact List.nil_subset _
  · next changed here =>
    intro m mem
    rcases List.mem_append.mp (Graph.mem_orderLeafFirst.mp mem) with added | last
    · exact (Graph.mem_addedSince.mp added).1
    · rw [List.mem_singleton.mp last]
      exact (Graph.mem_of_moduleAt? here).1

/-- The first look at a change finds modules of the session. -/
theorem Progress.start_modules (s : Session) (change : Change) :
    (start s change).modules ⊆ s.graph.modules := by
  have still : s.graph.modules ++ [] ⊆ s.graph.modules := by
    rw [List.append_nil]
    exact List.Subset.refl _
  unfold start
  split
  · exact still
  · split
    · exact still
    · next m here =>
      have alone : [m] ⊆ s.graph.modules :=
        List.cons_subset.mpr ⟨(Graph.mem_of_moduleAt? here).1, List.nil_subset _⟩
      split
      · split
        · exact List.nil_subset _
        · exact still
      · split
        · exact still
        · exact List.append_subset.mpr ⟨List.Subset.refl _, alone⟩
        · exact alone

/-! ### Connections -/

namespace Connection

variable {c : Connection}

theorem Ends.modules {result : Except UpdateFault (Option Payload)} {moved : Moved}
    (h : Ends c result moved) : moved.1.modules = c.session.graph.modules := by
  cases h <;> exact List.append_nil _

theorem conclude_modules (c : Connection) (result : Except UpdateFault (Option Payload)) :
    (c.conclude result).1.modules = c.session.graph.modules :=
  (conclude_ends c result).modules

theorem act_modules (c : Connection) (reaction : Reaction) :
    (c.act reaction).1.modules ⊆ c.session.graph.modules ++ reaction.modules := by
  have concluded (result) :
      (c.conclude result).1.modules ⊆ c.session.graph.modules ++ reaction.modules := by
    rw [conclude_modules]
    exact List.subset_append_left _ _
  cases reaction with
  | irrelevant => exact concluded _
  | deleted m => exact concluded _
  | rebuild modules =>
    rcases c.session.jobFor?_cases c.endpoint modules with
      ⟨none_, -⟩ | ⟨job, ordered, same, named, -⟩
    · simp only [act, none_]
      exact concluded _
    · simp only [act, ordered]
      intro m mem
      simp only [Connection.modules, Option.toList_some, List.flatMap_singleton, Cycle.modules,
        BuildJob.named, same, named, Session.resolution, List.mem_append, List.mem_filter] at mem
      rw [List.mem_append, Reaction.modules]
      tauto

theorem advance_modules (c : Connection) (change : Change) (progress : Progress) :
    (c.advance change progress).1.modules ⊆ c.session.graph.modules ++ progress.modules := by
  match progress with
  | .probing probe =>
    rw [advance, Connection.modules, Option.toList_some, List.flatMap_singleton]
    exact List.Subset.refl _
  | .settled (.error fault) =>
    rw [advance, conclude_modules]
    exact List.subset_append_left _ _
  | .settled (.ok (g, reaction)) =>
    exact List.Subset.trans (act_modules _ reaction) (List.subset_append_right _ _)

/-- **To take a change up** brings no modules. -/
theorem handle_modules (c : Connection) (change : Change) :
    (c.handle change).1.modules ⊆ c.modules := by
  have discarded : (c.discard).1.modules ⊆ c.modules := by
    rw [show c.discard.1.modules = c.session.graph.modules from List.append_nil _]
    exact List.subset_append_left _ _
  unfold handle
  split
  · exact discarded
  · split
    · exact List.Subset.refl _
    · rcases send_cases { c with phase := .awaiting } .updateStart
        (fun c => c.advance change (Progress.start c.session change)) with h | ⟨sink, -, h⟩
      · rw [h]
        exact discarded
      · rw [h]
        refine List.Subset.trans (advance_modules _ _ _) (List.append_subset.mpr ⟨?_, ?_⟩)
        · exact List.subset_append_left _ _
        · exact List.Subset.trans (Progress.start_modules c.session change)
            (List.subset_append_left _ _)

theorem receive_modules (c : Connection) (answer : Except ResolveFault (List BuiltModule)) :
    (c.receive answer).1.modules = c.session.graph.modules := by
  cases answer <;> exact conclude_modules c _

end Connection

/-! ### Services -/

namespace Service

variable {s : Service}

theorem mem_modules {m : Module} :
    m ∈ s.modules ↔ ∃ e ∈ s.workers, m ∈ e.2.connection.modules := List.mem_flatMap

theorem modules_of_worker? {id : ConnectionId} {w : Worker} (here : s.worker? id = some w) :
    w.connection.modules ⊆ s.modules :=
  fun _ mem => mem_modules.mpr ⟨(id, w), Assoc.mem_of_get?_eq here, mem⟩

/-- Something happens to the worker of a connection, and may bring it modules. -/
theorem onWorker_modules (s : Service) (id : ConnectionId) {f : Worker → Worker}
    {brought : List Module}
    (only : ∀ w, (f w).connection.modules ⊆ w.connection.modules ++ brought) :
    (s.onWorker id f).modules ⊆ s.modules ++ brought := by
  intro m mem
  obtain ⟨e, there, mem⟩ := mem_modules.mp mem
  obtain ⟨e₀, before, rfl⟩ := List.mem_map.mp there
  split at mem
  · rcases List.mem_append.mp (only e₀.2 mem) with kept | new
    · exact List.mem_append_left _ (mem_modules.mpr ⟨e₀, before, kept⟩)
    · exact List.mem_append_right _ new
  · exact List.mem_append_left _ (mem_modules.mpr ⟨e₀, before, mem⟩)

theorem onWorker_modules_of_keeps (s : Service) (id : ConnectionId) {f : Worker → Worker}
    (keeps : ∀ w, (f w).connection.modules = w.connection.modules) :
    (s.onWorker id f).modules ⊆ s.modules := by
  have only : ∀ w, (f w).connection.modules ⊆ w.connection.modules ++ [] := fun w => by
    rw [keeps, List.append_nil]
    exact List.Subset.refl _
  have kept := s.onWorker_modules id only
  rwa [List.append_nil] at kept

theorem disconnect_modules (s : Service) (id : ConnectionId) :
    (s.disconnect id).2.modules ⊆ s.modules := by
  cases there : s.store.contains id with
  | false =>
    rw [disconnect_of_not_contains there]
    exact List.Subset.refl _
  | true =>
    rw [disconnect_of_contains there]
    exact onWorker_modules_of_keeps _ id fun _ => rfl

theorem tellAll_hand_modules (change : Change) (ids : List ConnectionId) (s : Service) :
    (tellAll (hand change) ids s).modules ⊆ s.modules := by
  induction ids generalizing s with
  | nil => exact List.Subset.refl _
  | cons id ids ih =>
    refine List.Subset.trans (ih (hand change id s)) (onWorker_modules_of_keeps s id fun w => ?_)
    unfold Worker.enqueue
    split <;> rfl

theorem emit_modules (s : Service) (change : Change) : (s.emit change).2.modules ⊆ s.modules := by
  unfold emit
  split
  · exact List.Subset.refl _
  · exact tellAll_hand_modules change _ s

/-- **A client that is taken in** brings the modules of its graph. -/
theorem enrol_modules (s : Service) (platform : String) (entry : Path) (sink : Sink)
    (seed : Except ResolveFault Graph) :
    (s.enrol platform entry sink seed).2.modules ⊆
      s.modules ++ seed.toOption.toList.flatMap Graph.modules := by
  rcases s.enrol_cases platform entry sink seed with
    ⟨fault, refusal, nextId, -, he⟩ | ⟨g, source, rfl, -, he⟩
  · rw [he]
    exact List.subset_append_left _ _
  · rw [he]
    intro m mem
    obtain ⟨e, there, mem⟩ := mem_modules.mp mem
    rcases List.mem_append.mp there with before | new
    · exact List.mem_append_left _ (mem_modules.mpr ⟨e, before, mem⟩)
    · rw [List.mem_singleton.mp new] at mem
      refine List.mem_append_right _ ?_
      simpa [Connection.modules, newcomer, Except.toOption] using mem

/-- **A worker that took a step** brings the modules that it has then. -/
theorem worked_modules (s : Service) (id : ConnectionId) (w : Worker) :
    (s.worked id w).modules ⊆ s.modules ++ w.connection.modules := by
  rw [worked_eq]
  split
  · exact onWorker_modules { s with store := _ } id fun _ => List.subset_append_right _ _
  · exact onWorker_modules s id fun _ => List.subset_append_right _ _

end Service

/-! ### Over a project -/

variable {p p' : Project}

/-- The project has numbered some modules as they say. -/
def Project.KnowsAll (p : Project) (modules : List Module) : Prop := ∀ m ∈ modules, p.Knows m

namespace Project

theorem KnowsAll.subset {ms ms' : List Module} (h : p.KnowsAll ms) (sub : ms' ⊆ ms) :
    p.KnowsAll ms' :=
  fun m mem => h m (sub mem)

theorem knowsAll_append {ms ms' : List Module} :
    p.KnowsAll (ms ++ ms') ↔ p.KnowsAll ms ∧ p.KnowsAll ms' := List.forall_mem_append

/-- What is known stays known. -/
theorem KnowsAll.grow {ms : List Module} (h : p.KnowsAll ms) (grows : p.Grows p') :
    p'.KnowsAll ms :=
  fun m mem => grows.knows (h m mem)

/-- Whatever a project is asked, numbers stay. -/
theorem grows_answer {α : Type} (p : Project) (q : Query α) :
    p.Grows (q.answer resolver p).2 := by
  cases q with
  | module path next => exact grows_moduleOf path p
  | dependencies lookup next => exact grows_dependencies lookup p

end Project

/-- **What a discovery finds is numbered.** -/
theorem Search.knows_next {s : Search} (known : p.KnowsAll s.modules) :
    (s.next.answer Project.resolver p).2.KnowsAll
      (found (s.next.answer Project.resolver p).1) := by
  have known' := known.grow (p.grows_answer s.next)
  unfold next at known' ⊢
  cases pending : s.pending with
  | none =>
    simp only [pending, Query.answer, Project.resolver] at known' ⊢
    have told : ∀ m, (Project.moduleOf s.path p).1 = .ok m →
        (Project.moduleOf s.path p).2.Knows m := fun m => Project.moduleOf_ok
    generalize Project.moduleOf s.path p = answered at known' told ⊢
    obtain ⟨fault | m, p'⟩ := answered
    · exact fun _ mem => absurd mem List.not_mem_nil
    · -- the module at the path is the one that the project has just numbered
      have both : p'.KnowsAll (s.graph.modules ++ [m]) :=
        Project.knowsAll_append.mpr
          ⟨known'.subset (List.subset_append_left _ _), List.forall_mem_singleton.mpr (told m rfl)⟩
      simp only [Except.map]
      split
      · exact both
      · exact both.subset (absorb_modules s m [])
  | some m =>
    simp only [pending, Query.answer, Project.resolver] at known' ⊢
    generalize Project.dependencies ⟨s.platform, s.path, s.entry⟩ p = answered at known' ⊢
    obtain ⟨fault | deps, p'⟩ := answered
    · exact fun _ mem => absurd mem List.not_mem_nil
    · refine known'.subset (List.Subset.trans (absorb_modules s m deps) ?_)
      rw [modules, pending]
      exact List.Subset.refl _

/-- **What a probe finds is numbered.** -/
theorem Probe.knows_next {s : Session} {change : Change} {probe : Probe}
    (graph : p.KnowsAll s.graph.modules) (known : p.KnowsAll probe.modules) :
    ((probe.next s change).answer Project.resolver p).2.KnowsAll
      ((probe.next s change).answer Project.resolver p).1.modules := by
  have graph' := graph.grow (p.grows_answer (probe.next s change))
  have known' := known.grow (p.grows_answer (probe.next s change))
  cases probe with
  | dependencies m =>
    simp only [next, Query.answer] at graph' known' ⊢
    split
    · exact fun _ mem => absurd mem List.not_mem_nil
    · split
      · exact Project.knowsAll_append.mpr ⟨graph', known'⟩
      · exact fun _ mem => absurd mem List.not_mem_nil
  | graph search =>
    have found := search.knows_next known
    rw [next, Query.answer_map]
    simp only
    generalize search.next.answer Project.resolver p = answered at found ⊢
    obtain ⟨fault | search' | g, p'⟩ := answered
    · exact fun _ mem => absurd mem List.not_mem_nil
    · exact found
    · exact found.subset (Progress.regraphed_modules s change g)

/-- **A step of a cycle** leaves a connection with modules that are numbered. -/
theorem Connection.knows_step? {c : Connection} {moved : Moved} (known : p.KnowsAll c.modules)
    (waits : ∀ job, c.cycle ≠ some (.building job))
    (h : c.step? Project.resolver p = some (moved, p')) :
    p.Grows p' ∧ p'.KnowsAll moved.1.modules := by
  obtain ⟨graph, cycle⟩ := Project.knowsAll_append.mp known
  unfold step? at h
  split at h
  · cases h
  · next change probe probing =>
    cases h
    have grows := p.grows_answer (probe.next c.session change)
    have probed : p.KnowsAll probe.modules := by
      simpa [probing, Cycle.modules] using cycle
    refine ⟨grows, Project.KnowsAll.subset ?_ (advance_modules c change _)⟩
    exact Project.knowsAll_append.mpr ⟨graph.grow grows, Probe.knows_next graph probed⟩
  · next job ordering =>
    cases h
    refine ⟨.refl p, ?_⟩
    simpa [Connection.modules, ordering, Cycle.modules, Project.resolver] using known
  · next job building => exact absurd building (waits job)

/-- **A step of a worker** leaves it with modules that are numbered. -/
theorem Worker.Does.knows {w w' : Worker} {deeds : List Deed}
    (known : p.KnowsAll w.connection.modules)
    (waits : ∀ job, w.connection.cycle ≠ some (.building job))
    (h : w.Does Project.resolver p deeds w' p') :
    p.Grows p' ∧ p'.KnowsAll w'.connection.modules := by
  cases h with
  | @take change queue live idle next =>
    rw [absorb_connection]
    exact ⟨.refl p, known.subset (w.connection.handle_modules change)⟩
  | go live h =>
    rw [absorb_connection]
    exact Connection.knows_step? known waits h
  | dry => exact ⟨.refl p, known⟩

end HotReload
