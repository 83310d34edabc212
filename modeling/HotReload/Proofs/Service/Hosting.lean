import HotReload.Proofs.Graph.Discovery
import HotReload.Proofs.Service.Modules

/-!
# A service over a project

All clients of a service share one project.  Several ask it at a time: the discovery for a client
that is coming waits between two files and a build waits between two modules, and meanwhile others
ask and the files change.

* `Hosting.Step`, `Hosting.Run`: what can happen, in any order, with a log of all that is built.
* `Hosting.Run.connects`: to connect a client is a run.
* `Hosting.Run.completes`, `Hosting.Run.of_goes`: what the workers do by themselves is a run.
-/

namespace HotReload

/-- A build under way. -/
structure Build where
  client : ConnectionId
  job : BuildJob
  built : List BuiltModule := []
  /-- The modules that are still to be built. -/
  left : List Module

/-- A module that was built for a client. -/
structure Made where
  client : ConnectionId
  job : BuildJob
  module : Module
  entry : BuiltModule
  /-- The project from which it was built, as it was then. -/
  project : Project

/-- A service with the project that its clients share. -/
structure Hosting where
  project : Project
  /-- The discoveries for clients that are coming. -/
  searches : List Search := []
  service : Service := {}
  builds : List Build := []

/-! ### Discoveries -/

namespace Search

/-- A discovery has one client. -/
theorem next_client {σ : Type} {r : Resolver σ} {st st' : σ} {s s' : Search}
    (h : s.next.answer r st = (.ok (.inl s'), st')) :
    s'.platform = s.platform ∧ s'.entry = s.entry := by
  have absorbed (m : Module) (deps : List Path) (goes : s.absorb m deps = .inl s') :
      s'.platform = s.platform ∧ s'.entry = s.entry := by
    unfold absorb at goes
    simp only at goes
    split at goes
    · cases goes
    · cases goes
      exact ⟨rfl, rfl⟩
  unfold next at h
  split at h
  · simp only [Query.answer, Prod.mk.injEq] at h
    obtain ⟨m, -, goes⟩ := map_eq_ok h.1
    split at goes
    · cases goes
      exact ⟨rfl, rfl⟩
    · exact absorbed m [] goes
  · simp only [Query.answer, Prod.mk.injEq] at h
    obtain ⟨deps, -, goes⟩ := map_eq_ok h.1
    exact absorbed _ deps goes

/-- What is said of a discovery that takes too long. -/
def brokenOff : ResolveFault := .other "The discovery of the graph was broken off"

theorem discover_eq {σ : Type} (r : Resolver σ) (platform : String) (entry : Path) (st : σ) :
    discover r platform entry st =
      (((start platform entry).run r (r.bound st) st).1.getD (.error brokenOff),
        ((start platform entry).run r (r.bound st) st).2) := by
  unfold discover
  rcases (start platform entry).run r (r.bound st) st with ⟨_ | answer, st'⟩ <;> rfl

end Search

/-! ### Steps and runs -/

namespace Hosting

/-- The service at its start, with a project that has not been asked anything. -/
def opened (root : Path) (extensions : List String) (disk : Disk) (endpoint : Endpoint) :
    Hosting where
  project := { root, extensions, disk }
  service := { endpoint }

/-- The worker of a client goes on with what was built for it. -/
def received (s : Service) (id : ConnectionId) (w : Worker)
    (answer : Except ResolveFault (List BuiltModule)) : Service :=
  s.worked id (w.absorb (w.connection.receive answer))

/-- What can happen to a service over a project, and what is built. -/
inductive Step (h : Hosting) : List Made → Hosting → Prop where
  /-- The files change. -/
  | edit (disk : Disk) : Step h [] { h with project := { h.project with disk } }
  /-- A client is coming, and the discovery of its graph begins. -/
  | arrive (platform : String) (entry : Path) :
      Step h [] { h with searches := h.searches ++ [Search.start platform entry] }
  /-- A discovery asks its next question. -/
  | look {before after : List Search} {s s' : Search} {p' : Project}
      (here : h.searches = before ++ s :: after)
      (told : s.next.answer Project.resolver h.project = (.ok (.inl s'), p')) :
      Step h [] { h with project := p', searches := before ++ s' :: after }
  /-- A discovery is at its end, and its client is taken in or refused by the source. -/
  | enrol {before after : List Search} {s : Search} {g : Graph} {p' : Project} (sink : Sink)
      (here : h.searches = before ++ s :: after)
      (told : s.next.answer Project.resolver h.project = (.ok (.inr g), p')) :
      Step h []
        { h with
          project := p'
          searches := before ++ after
          service := (h.service.enrol s.platform s.entry sink (.ok g)).2 }
  /-- A discovery fails. -/
  | miss {before after : List Search} {s : Search} {fault : ResolveFault} {p' : Project}
      (sink : Sink) (here : h.searches = before ++ s :: after)
      (told : s.next.answer Project.resolver h.project = (.error fault, p')) :
      Step h []
        { h with
          project := p'
          searches := before ++ after
          service := (h.service.enrol s.platform s.entry sink (.error fault)).2 }
  /-- A discovery is broken off. -/
  | abandon {before after : List Search} {s : Search} (sink : Sink) (fault : ResolveFault)
      (here : h.searches = before ++ s :: after) :
      Step h []
        { h with
          searches := before ++ after
          service := (h.service.enrol s.platform s.entry sink (.error fault)).2 }
  | start (id : ConnectionId) : Step h [] { h with service := h.service.start id }
  | disconnect (id : ConnectionId) : Step h [] { h with service := (h.service.disconnect id).2 }
  | onSink (id : ConnectionId) (f : Sink → Sink) :
      Step h [] { h with service := h.service.onSink id f }
  | emit (change : Change) : Step h [] { h with service := (h.service.emit change).2 }
  | withSource (source : Source) : Step h [] { h with service := h.service.withSource source }
  /-- A worker takes a step that does not wait for a build. -/
  | work {id : ConnectionId} {w w' : Worker} {deeds : List Deed} {p' : Project}
      (here : h.service.worker? id = some w)
      (waits : ∀ job, w.connection.cycle ≠ some (.building job))
      (does : w.Does Project.resolver h.project deeds w' p') :
      Step h [] { h with project := p', service := h.service.worked id w' }
  /-- A build that was ordered begins. -/
  | begin {id : ConnectionId} {w : Worker} {job : BuildJob}
      (here : h.service.worker? id = some w) (waits : w.connection.cycle = some (.building job))
      (first : ∀ b ∈ h.builds, b.client ≠ id) :
      Step h [] { h with builds := h.builds ++ [{ client := id, job, left := job.modules }] }
  /-- One more module is built. -/
  | make {before after : List Build} {b : Build} {m : Module} {left : List Module} {body : String}
      {p' : Project} (here : h.builds = before ++ b :: after) (next : b.left = m :: left)
      (made : Project.bodyOf b.job m h.project = (.ok body, p')) :
      Step h [⟨b.client, b.job, m, h.project.entryOf b.job m body, h.project⟩]
        { h with
          project := p'
          builds := before ++
            { b with built := b.built ++ [h.project.entryOf b.job m body], left } :: after }
  /-- A build fails. -/
  | fail {before after : List Build} {b : Build} {m : Module} {left : List Module}
      {fault : ResolveFault} {p' : Project} {w : Worker}
      (here : h.builds = before ++ b :: after) (next : b.left = m :: left)
      (made : Project.bodyOf b.job m h.project = (.error fault, p'))
      (worker : h.service.worker? b.client = some w)
      (waits : w.connection.cycle = some (.building b.job)) :
      Step h []
        { h with
          project := p'
          service := received h.service b.client w (.error fault)
          builds := before ++ after }
  /-- A build is delivered. -/
  | deliver {before after : List Build} {b : Build} {w : Worker}
      (here : h.builds = before ++ b :: after) (next : b.left = [])
      (worker : h.service.worker? b.client = some w)
      (waits : w.connection.cycle = some (.building b.job)) :
      Step h []
        { h with
          service := received h.service b.client w (.ok b.built)
          builds := before ++ after }

/-- Any number of steps, and all that is built on the way. -/
inductive Run : Hosting → List Made → Hosting → Prop where
  | refl (h : Hosting) : Run h [] h
  | step {h h₁ h' : Hosting} {log more : List Made} (t : Step h log h₁) (run : Run h₁ more h') :
      Run h (log ++ more) h'

namespace Run

variable {h h₁ h' : Hosting} {log more : List Made}

theorem trans (run : Run h log h₁) (run' : Run h₁ more h') : Run h (log ++ more) h' := by
  induction run with
  | refl => exact run'
  | step t _ ih =>
    rw [List.append_assoc]
    exact .step t (ih run')

theorem one (t : Step h log h') : Run h log h' := by
  rw [← List.append_nil log]
  exact .step t (.refl h')

/-- A step at which nothing is built. -/
theorem quiet (t : Step h [] h₁) (run : Run h₁ log h') : Run h log h' := .step t run

/-! ### Connecting a client -/

/-- **A discovery to its end,** and what becomes of its client. -/
theorem searched (sink : Sink) (fuel : Nat) {before after : List Search} {s : Search}
    (here : h.searches = before ++ s :: after) :
    Run h []
      { h with
        project := (s.run Project.resolver fuel h.project).2
        searches := before ++ after
        service := (h.service.enrol s.platform s.entry sink
          ((s.run Project.resolver fuel h.project).1.getD (.error Search.brokenOff))).2 } := by
  induction fuel generalizing h s with
  | zero => exact one (.abandon sink _ here)
  | succ fuel ih =>
    cases told : s.next.answer Project.resolver h.project with
    | mk answer p' =>
      rcases answer with fault | s' | g
      · simp only [Search.run, told]
        exact one (.miss sink here told)
      · -- the same client is served on
        obtain ⟨platform, entry⟩ := Search.next_client told
        have rest := ih (h := { h with project := p', searches := before ++ s' :: after }) rfl
        rw [platform, entry] at rest
        simp only [Search.run, told]
        exact quiet (.look here told) rest
      · simp only [Search.run, told]
        exact one (.enrol sink here told)

/-- **To connect a client** is a run. -/
theorem connects (h : Hosting) (platform : String) (entry : Path) (sink : Sink) :
    Run h []
      { h with
        project := (h.service.connect Project.resolver platform entry sink h.project).2.2
        service := (h.service.connect Project.resolver platform entry sink h.project).2.1 } := by
  have found := searched sink (Project.bound h.project) (s := Search.start platform entry)
    (h := { h with searches := h.searches ++ [Search.start platform entry] }) rfl
  have taken : Run h []
      { h with
        project := (Search.discover Project.resolver platform entry h.project).2
        service := (h.service.enrol platform entry sink
          (Search.discover Project.resolver platform entry h.project).1).2 } := by
    rw [List.append_nil] at found
    rw [Search.discover_eq]
    exact quiet (.arrive platform entry) found
  unfold Service.connect
  generalize Search.discover Project.resolver platform entry h.project = seed at taken ⊢
  simp only
  generalize h.service.enrol platform entry sink seed.1 = enrolled at taken ⊢
  obtain ⟨fault | id, s⟩ := enrolled
  · exact taken
  · exact taken.trans (one (.start id))

/-! ### What workers do -/

/-- **A build that is under way is delivered,** or it fails, as when it is made at once. -/
theorem completes {before after : List Build} {client : ConnectionId} {job : BuildJob}
    {built : List BuiltModule} {modules : List Module} {w : Worker}
    (here : h.builds = before ++ ⟨client, job, built, modules⟩ :: after)
    (worker : h.service.worker? client = some w)
    (waits : w.connection.cycle = some (.building job)) :
    ∃ log, Run h log
        { h with
          project := (Project.build job h.project modules).2
          service := received h.service client w
            ((Project.build job h.project modules).1.map (built ++ ·))
          builds := before ++ after } ∧
      ∀ entries, (Project.build job h.project modules).1 = .ok entries →
        log.map (fun made => (made.client, made.entry)) = entries.map (client, ·) := by
  induction modules generalizing h built with
  | nil =>
    refine ⟨[], ?_, fun entries whole => ?_⟩
    · have done := Step.deliver here rfl worker waits
      simpa only [Project.build, Except.map, List.append_nil] using one done
    · cases whole
      rfl
  | cons m left ih =>
    rw [Project.build_cons]
    cases made : Project.bodyOf job m h.project with
    | mk answer p₁ =>
      cases answer with
      | error fault =>
        exact ⟨[], one (.fail here rfl made worker waits), fun entries none_ => by cases none_⟩
      | ok body =>
        -- the bundle goes on from the project as this module leaves it
        obtain ⟨log, run, all⟩ := ih
          (h := { h with
            project := p₁
            builds := before ++
              ⟨client, job, built ++ [h.project.entryOf job m body], left⟩ :: after }) rfl worker
        have whole := Run.step (.make here rfl made) run
        simp only at all whole ⊢
        generalize Project.build job p₁ left = others at all whole ⊢
        obtain ⟨fault | entries, p₂⟩ := others
        · exact ⟨_, whole, fun entries none_ => by cases none_⟩
        · simp only [Except.map, List.append_assoc] at whole
          refine ⟨_, whole, fun entries' same => ?_⟩
          cases same
          rw [List.map_append, all entries rfl]
          rfl

/-- **What a worker does by itself** is a run; where it waits for a build, all of the build is made
and delivered. -/
theorem of_step? {id : ConnectionId} {s' : Service} {p' : Project} (idle : h.builds = [])
    (hs : h.service.step? Project.resolver id h.project = some (s', p')) :
    ∃ log, Run h log { h with project := p', service := s' } ∧
      ∀ w job entries, h.service.worker? id = some w →
        w.connection.cycle = some (.building job) →
        (Project.build job h.project job.modules).1 = .ok entries →
        log.map (fun made => (made.client, made.entry)) = entries.map (id, ·) := by
  obtain ⟨w, deeds, w', here, does, rfl⟩ := Service.step?_iff.mp hs
  by_cases waits : ∃ job, w.connection.cycle = some (.building job)
  · obtain ⟨job, waits⟩ := waits
    cases does with
    | take live free => simp [waits] at free
    | dry live free => simp [waits] at free
    | @go moved p' live go =>
      simp only [Connection.step?, waits, Project.resolver, Option.some.injEq, Prod.mk.injEq] at go
      obtain ⟨rfl, rfl⟩ := go
      have begun := Step.begin here waits fun b mem => by simp [idle] at mem
      obtain ⟨log, run, all⟩ := completes
        (h := { h with builds := h.builds ++ [⟨id, job, [], job.modules⟩] }) rfl here waits
      have whole : ∀ answer : Except ResolveFault (List BuiltModule),
          answer.map ([] ++ ·) = answer := by
        rintro (fault | entries) <;> rfl
      simp only [whole, idle, List.append_nil] at run
      refine ⟨log, quiet begun (idle ▸ run), fun v job' entries there awaits built => all _ ?_⟩
      rw [here] at there
      cases there
      rw [waits] at awaits
      cases awaits
      exact built
  · refine ⟨[], one (.work here (not_exists.mp waits) does), fun v job _ there awaits => ?_⟩
    rw [here] at there
    cases there
    exact absurd ⟨job, awaits⟩ waits

/-- **What the workers do by themselves** is a run. -/
theorem of_goes {s s' : Service} {p p' : Project}
    (goes : Service.Goes Project.resolver s p s' p') (searches : List Search) :
    ∃ log, Run { project := p, searches, service := s } log
      { project := p', searches, service := s' } := by
  induction goes with
  | refl s p => exact ⟨[], .refl _⟩
  | @step s s₁ s' p p₁ p' id hs _ ih =>
    obtain ⟨log, first, -⟩ := of_step?
      (h := ({ project := p, searches, service := s } : Hosting)) rfl hs
    obtain ⟨more, rest⟩ := ih
    exact ⟨log ++ more, first.trans rest⟩

end Run

end Hosting

end HotReload
