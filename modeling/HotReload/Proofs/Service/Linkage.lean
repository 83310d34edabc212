import HotReload.Proofs.Service.Hosting

/-!
# One table of numbers

A file is given its number when a lookup or a build first meets it, and from then on the number is
everywhere the same: in the graph of every client, in every literal of a `require` that stands for
the file, and in the definition of the file itself, whoever it is built for.

* `Made.LinkedBy`: what is said of a built module by a table of numbers.
* `Hosting.Sound`: all modules that are at hand have the numbers of the table.
* `Hosting.Step.sound`: one step; the table only grows at its end.
* `Hosting.Step.linked`: what is built in one step is linked by the table.
* `Hosting.Run.linkage`: over a whole run.
-/

namespace HotReload

/-! ### Built modules -/

/-- A table of numbers links what was built: the module itself, and all that the build knew of the
program around it. -/
structure Made.LinkedBy (made : Made) (number : Path → Option ModuleId) : Prop where
  linked : Project.Linked number made.project made.module made.entry
  known : ∀ q id, made.job.resolution.idFor? q = some id → number q = some id

/-- A table that says more links what was linked before. -/
theorem Made.LinkedBy.mono {made : Made} {number number' : Path → Option ModuleId}
    (h : made.LinkedBy number)
    (more : ∀ {q : Path} {id : ModuleId}, number q = some id → number' q = some id) :
    made.LinkedBy number' :=
  ⟨h.linked.mono more, fun q id found => more (h.known q id found)⟩

/-! ### What is at hand -/

namespace Hosting

/-- The sessions of all clients. -/
def sessions (h : Hosting) : List Session := h.service.workers.map (·.2.connection.session)

/-- What builds know of programs: of those that are served, and of those that are being built. -/
def resolutions (h : Hosting) : List Resolution :=
  h.sessions.map Session.resolution ++ h.builds.map (·.job.resolution)

/-! ### One step -/

/-- All modules that are at hand have the numbers of the table. -/
structure Sound (h : Hosting) : Prop where
  table : h.project.Numbered
  searches : ∀ s ∈ h.searches, h.project.KnowsAll s.modules
  clients : h.project.KnowsAll h.service.modules
  builds : ∀ b ∈ h.builds, h.project.KnowsAll (b.left ++ b.job.named)

variable {h h' : Hosting} {log more : List Made}

theorem Sound.opened (root : Path) (extensions : List String) (disk : Disk) (endpoint : Endpoint) :
    (opened root extensions disk endpoint).Sound where
  table := { places := fun _ _ at_ => (by cases at_), distinct := List.nodup_nil }
  searches _ mem := absurd mem List.not_mem_nil
  clients _ mem := absurd mem List.not_mem_nil
  builds _ mem := absurd mem List.not_mem_nil

/-- The project is asked something, or changes on the disk. -/
theorem Sound.grow (sound : h.Sound) {p' : Project} (grows : h.project.Grows p') :
    ({ h with project := p' } : Hosting).Sound where
  table := grows.numbered sound.table
  searches s mem := (sound.searches s mem).grow grows
  clients := sound.clients.grow grows
  builds b mem := (sound.builds b mem).grow grows

/-- The service goes on, and takes in modules that are numbered. -/
theorem Sound.serve (sound : h.Sound) {s' : Service} {brought : List Module}
    (sub : s'.modules ⊆ h.service.modules ++ brought) (known : h.project.KnowsAll brought) :
    ({ h with service := s' } : Hosting).Sound :=
  { sound with clients := (Project.knowsAll_append.mpr ⟨sound.clients, known⟩).subset sub }

/-- The service goes on by itself. -/
theorem Sound.stir (sound : h.Sound) {s' : Service} (sub : s'.modules ⊆ h.service.modules) :
    ({ h with service := s' } : Hosting).Sound :=
  { sound with clients := sound.clients.subset sub }

/-- One discovery comes further, or to its end. -/
theorem Sound.search (sound : h.Sound) {before after : List Search} {s : Search}
    (here : h.searches = before ++ s :: after) {next : List Search}
    (known : ∀ s ∈ next, h.project.KnowsAll s.modules) :
    ({ h with searches := before ++ (next ++ after) } : Hosting).Sound := by
  have all := sound.searches
  rw [here, List.forall_mem_append, List.forall_mem_cons] at all
  refine { sound with searches := ?_ }
  rw [List.forall_mem_append, List.forall_mem_append]
  exact ⟨all.1, known, all.2.2⟩

/-- One build comes further, or to its end. -/
theorem Sound.build (sound : h.Sound) {before after : List Build} {b : Build}
    (here : h.builds = before ++ b :: after) {next : List Build}
    (known : ∀ b ∈ next, h.project.KnowsAll (b.left ++ b.job.named)) :
    ({ h with builds := before ++ (next ++ after) } : Hosting).Sound := by
  have all := sound.builds
  rw [here, List.forall_mem_append, List.forall_mem_cons] at all
  refine { sound with builds := ?_ }
  rw [List.forall_mem_append, List.forall_mem_append]
  exact ⟨all.1, known, all.2.2⟩

/-- A worker goes on with what was built for it: no module comes with that. -/
theorem Sound.received (sound : h.Sound) {id : ConnectionId} {w : Worker}
    (worker : h.service.worker? id = some w) (answer : Except ResolveFault (List BuiltModule)) :
    ({ h with service := received h.service id w answer } : Hosting).Sound := by
  refine sound.serve (h.service.worked_modules id _) ?_
  rw [Worker.absorb_connection, Connection.receive_modules]
  exact (sound.clients.subset (Service.modules_of_worker? worker)).subset
    (List.subset_append_left _ _)

/-- The modules of a build that is under way. -/
theorem Sound.of_build (sound : h.Sound) {before after : List Build} {b : Build}
    (here : h.builds = before ++ b :: after) : h.project.KnowsAll (b.left ++ b.job.named) :=
  sound.builds b (here ▸ List.mem_append_right _ List.mem_cons_self)

/-- **In one step the table grows at most,** and all that is at hand has its numbers. -/
theorem Step.sound (t : Step h log h') (sound : h.Sound) :
    h.project.Grows h'.project ∧ h'.Sound := by
  cases t with
  | edit disk =>
    have grows := Project.Grows.of_disk h.project disk h.project.memory
    exact ⟨grows, sound.grow grows⟩
  | arrive platform entry =>
    refine ⟨.refl _, { sound with searches := ?_ }⟩
    rw [List.forall_mem_append, List.forall_mem_singleton]
    exact ⟨sound.searches, fun _ mem => absurd mem List.not_mem_nil⟩
  | @look before after s s' p' here told =>
    have grows := h.project.grows_answer s.next
    have found := Search.knows_next (sound.searches s (by simp [here]))
    rw [told] at grows found
    exact ⟨grows, (sound.grow grows).search here (List.forall_mem_singleton.mpr found)⟩
  | @enrol before after s g p' sink here told =>
    have grows := h.project.grows_answer s.next
    have found := Search.knows_next (sound.searches s (by simp [here]))
    rw [told] at grows found
    refine ⟨grows, ((sound.grow grows).search here (List.forall_mem_nil _)).serve
      (h.service.enrol_modules s.platform s.entry sink (.ok g)) ?_⟩
    simpa [Except.toOption, Search.found] using found
  | @miss before after s fault p' sink here told =>
    have grows := h.project.grows_answer s.next
    rw [told] at grows
    refine ⟨grows, ((sound.grow grows).search here (List.forall_mem_nil _)).serve
      (h.service.enrol_modules s.platform s.entry sink (.error fault)) ?_⟩
    exact fun _ mem => absurd mem List.not_mem_nil
  | @abandon before after s sink fault here =>
    refine ⟨.refl _, (sound.search here (List.forall_mem_nil _)).serve
      (h.service.enrol_modules s.platform s.entry sink (.error fault)) ?_⟩
    exact fun _ mem => absurd mem List.not_mem_nil
  | start id => exact ⟨.refl _, sound.stir (h.service.onWorker_modules_of_keeps id fun _ => rfl)⟩
  | disconnect id => exact ⟨.refl _, sound.stir (h.service.disconnect_modules id)⟩
  | onSink id f =>
    exact ⟨.refl _, sound.stir (h.service.onWorker_modules_of_keeps id fun _ => rfl)⟩
  | emit change => exact ⟨.refl _, sound.stir (h.service.emit_modules change)⟩
  | withSource source => exact ⟨.refl _, sound.stir (List.Subset.refl _)⟩
  | work here waits does =>
    obtain ⟨grows, known⟩ :=
      does.knows (sound.clients.subset (Service.modules_of_worker? here)) waits
    exact ⟨grows, (sound.grow grows).serve (h.service.worked_modules _ _) known⟩
  | @begin id w job here waits first =>
    refine ⟨.refl _, { sound with builds := ?_ }⟩
    rw [List.forall_mem_append, List.forall_mem_singleton]
    refine ⟨sound.builds, (sound.clients.subset (Service.modules_of_worker? here)).subset ?_⟩
    -- what is to be built is named by the order
    intro m mem
    rw [Connection.modules, waits]
    refine List.mem_append_right _ ?_
    simpa [Cycle.modules, BuildJob.named] using mem
  | @make before after b m left body p' here next made =>
    have grows := Project.grows_bodyOf b.job m h.project
    rw [made] at grows
    refine ⟨grows, (sound.grow grows).build here (List.forall_mem_singleton.mpr ?_)⟩
    refine ((sound.of_build here).grow grows).subset ?_
    rw [next]
    exact List.subset_cons_self _ _
  | @fail before after b m left fault p' w here next made worker waits =>
    have grows := Project.grows_bodyOf b.job m h.project
    rw [made] at grows
    exact ⟨grows, (((sound.grow grows).build here (List.forall_mem_nil _)).received worker _)⟩
  | @deliver before after b w here next worker waits =>
    exact ⟨.refl _, ((sound.build here (List.forall_mem_nil _)).received worker _)⟩

/-- **What is built in a step is linked by the table.** -/
theorem Step.linked (t : Step h log h') (sound : h.Sound) :
    ∀ made ∈ log, made.LinkedBy h'.project.number? := by
  cases t with
  | @make before after b m left body p' here next made =>
    have known := sound.of_build here
    have whole : ∀ m ∈ b.job.resolution.modules, h.project.Knows m := fun m mem =>
      known m (List.mem_append_right _ (List.mem_append_right _ mem))
    have grows := Project.grows_bodyOf b.job m h.project
    rw [made] at grows
    rw [List.forall_mem_singleton]
    exact ⟨Project.linked_of_bodyOf (known m (by simp [next])) whole made,
      fun q id found => grows.number? (Project.number?_of_idFor? whole found)⟩
  | edit | arrive | look | enrol | miss | abandon | start | disconnect | onSink | emit | withSource
  | work | begin | fail | deliver => exact fun made mem => absurd mem List.not_mem_nil

/-! ### Runs -/

theorem Run.sound (run : Run h log h') (sound : h.Sound) :
    h.project.Grows h'.project ∧ h'.Sound := by
  induction run with
  | refl h => exact ⟨.refl _, sound⟩
  | step t _ ih =>
    obtain ⟨grows, sound⟩ := t.sound sound
    obtain ⟨more, sound⟩ := ih sound
    exact ⟨grows.trans more, sound⟩

theorem Run.linked (run : Run h log h') (sound : h.Sound) :
    ∀ made ∈ log, made.LinkedBy h'.project.number? := by
  induction run with
  | refl h => exact fun made mem => absurd mem List.not_mem_nil
  | step t run ih =>
    intro made mem
    have sound' := (t.sound sound).2
    rcases List.mem_append.mp mem with now | later
    · exact (t.linked sound made now).mono (run.sound sound').1.number?
    · exact ih sound' made later

theorem Sound.session (sound : h.Sound) {s : Session} (mem : s ∈ h.sessions) :
    h.project.KnowsAll s.graph.modules := by
  obtain ⟨e, client, rfl⟩ := List.mem_map.mp mem
  exact fun m member => sound.clients m
    (Service.mem_modules.mpr ⟨e, client, List.mem_append_left _ member⟩)

theorem Sound.resolution (sound : h.Sound) {resolution : Resolution}
    (mem : resolution ∈ h.resolutions) : h.project.KnowsAll resolution.modules := by
  rcases List.mem_append.mp mem with served | building
  · obtain ⟨s, session, rfl⟩ := List.mem_map.mp served
    exact sound.session session
  · obtain ⟨b, way, rfl⟩ := List.mem_map.mp building
    exact (sound.builds b way).subset fun m member =>
      List.mem_append_right _ (List.mem_append_right _ member)

/-- In a session, the number of a module is that of the table. -/
theorem Sound.number?_of_moduleAt? (sound : h.Sound) {s : Session} (mem : s ∈ h.sessions) {q : Path}
    {m : Module} (here : s.graph.moduleAt? q = some m) : h.project.number? q = some m.id := by
  obtain ⟨member, same⟩ := Graph.mem_of_moduleAt? here
  rw [← Project.number?_congr same]
  exact sound.session mem m member

/-- **One table of numbers.**  Whatever is looked up and built, for whom and in which order, the
table of the project only grows at its end, and as long as it has not more paths than there are
numbers, two paths have one number exactly if they are the same.  The numbers by which a client
knows its modules are those of the table, and so are the numbers in all that was built: what a
module is built under, what it is defined under, and what stands for a file that it requires.  What
a build knows of its program and what the project answers never disagree. -/
theorem Run.linkage {root : Path} {extensions : List String} {disk : Disk} {endpoint : Endpoint}
    (run : Run (opened root extensions disk endpoint) log h) (later : Run h more h')
    (few : h'.project.ids.length ≤ UInt32.size) :
    h.project.ids <+: h'.project.ids ∧
      (∀ q r id id', h'.project.number? q = some id → h'.project.number? r = some id' →
        (id = id' ↔ (q == r) = true)) ∧
      (∀ s ∈ h.sessions, ∀ q m, s.graph.moduleAt? q = some m →
        h'.project.number? q = some m.id) ∧
      (∀ made ∈ log, made.LinkedBy h'.project.number?) ∧
      (∀ resolution ∈ h.resolutions, ∀ q id, resolution.idFor? q = some id →
        h.project.idOf q = (id, h.project)) := by
  have start := Sound.opened root extensions disk endpoint
  have sound := (run.sound start).2
  obtain ⟨grows, sound'⟩ := later.sound sound
  refine ⟨grows.ids, fun q r id id' hq hr => ⟨fun same => ?_, fun same => ?_⟩, ?_, ?_, ?_⟩
  · exact sound'.table.unique few hq (same ▸ hr)
  · rw [Project.number?_congr same, hr] at hq
    exact (Option.some.inj hq).symm
  · exact fun s mem q m here => grows.number? (sound.number?_of_moduleAt? mem here)
  · exact fun made mem => (run.linked start made mem).mono grows.number?
  · intro resolution mem q id here
    exact Project.idOf_of_number? (Project.number?_of_idFor? (sound.resolution mem) here)

end Hosting

namespace Sample

/-- Two files, of which the first requires the second. -/
def shelf : Disk :=
  (({} : Disk).write ⟨"/a.js"⟩ "require('./b')".toUTF8).write ⟨"/b.js"⟩ "1".toUTF8

def vacant : Hosting := .opened ⟨"/"⟩ [".js"] shelf {}

/-- One more client is served. -/
def visited (h : Hosting) (entry : Path) : Hosting :=
  let next := h.service.connect Project.resolver "ios" entry {} h.project
  { h with project := next.2.2, service := next.2.1 }

/-- The first client runs the second file, the second one runs both; then the first file changes. -/
def visitors : Hosting :=
  let h := visited (visited vacant ⟨"/b.js"⟩) ⟨"/a.js"⟩
  { h with service := (h.service.emit ⟨.modified, ⟨"/a.js"⟩⟩).2 }

/-- The worker of the second client has ordered a build. -/
def ordered : Hosting :=
  let next := visitors.service.run Project.resolver 2 3 visitors.project
  { visitors with project := next.2, service := next.1 }

/-- What a worker waits for. -/
def awaited (w : Worker) : Option BuildJob :=
  match w.connection.cycle with
  | some (.building job) => some job
  | _ => none

theorem ordered_run : ∃ log, Hosting.Run vacant log ordered := by
  have two := (Hosting.Run.connects vacant "ios" ⟨"/b.js"⟩ {}).trans
    (.connects (visited vacant ⟨"/b.js"⟩) "ios" ⟨"/a.js"⟩ {})
  obtain ⟨log, goes⟩ := Hosting.Run.of_goes
    (Service.goes_run Project.resolver 2 3 visitors.service visitors.project) []
  exact ⟨_, two.trans (.step (.emit ⟨.modified, ⟨"/a.js"⟩⟩) goes)⟩

/-- The build is delivered. -/
def supplied : Option Hosting :=
  (ordered.service.step? Project.resolver 2 ordered.project).map fun next =>
    { ordered with project := next.2, service := next.1 }

/-- The text that the first file is built into. -/
def requiring : String :=
  "__d(function(global, require, module, exports) \x7b\nrequire(0)\n\x7d, 1);"

theorem awaited_built :
    (((ordered.service.worker? 2).bind awaited).map fun job =>
      (Project.build job ordered.project job.modules).1.toOption.map (·.map (·.code))) =
      some (some [requiring]) := by decide +kernel

theorem supplied_numbers :
    supplied.map (fun h => (h.project.ids.length,
      h.sessions.map fun s => (s.graph.moduleAt? ⟨"/b.js"⟩).map (·.id))) =
      some (2, [some 0, some 0]) := by decide +kernel

/-- The second file is required by the number that it has in the graphs of both clients. -/
theorem requires_linked : ∃ log h, Hosting.Run vacant log h ∧
    h.project.ids.length ≤ UInt32.size ∧
    (∃ made ∈ log, made.client = 2 ∧ made.entry.code = requiring ∧
      made.LinkedBy h.project.number?) ∧
    h.sessions.map (fun s => (s.graph.moduleAt? ⟨"/b.js"⟩).map (·.id)) = [some 0, some 0] := by
  obtain ⟨h, delivered, numbers⟩ := Option.map_eq_some_iff.mp supplied_numbers
  obtain ⟨length, sessions⟩ := Prod.mk.inj numbers
  obtain ⟨⟨s', p'⟩, hs, rfl⟩ := Option.map_eq_some_iff.mp delivered
  obtain ⟨job, ordered_, built⟩ := Option.map_eq_some_iff.mp awaited_built
  obtain ⟨w, here, waits⟩ := Option.bind_eq_some_iff.mp ordered_
  obtain ⟨entries, built, codes⟩ := Option.map_eq_some_iff.mp built
  have waits' : w.connection.cycle = some (.building job) := by
    unfold awaited at waits
    split at waits
    · next cycle =>
      cases waits
      exact cycle
    · cases waits
  have built' : (Project.build job ordered.project job.modules).1 = .ok entries := by
    revert built
    cases (Project.build job ordered.project job.modules).1 with
    | error fault => exact fun same => by cases same
    | ok entries => exact fun same => congrArg _ (Option.some.inj same)
  obtain ⟨log, before⟩ := ordered_run
  obtain ⟨more, step, all⟩ := Hosting.Run.of_step? (h := ordered) rfl hs
  have run := before.trans step
  have few : ({ ordered with project := p', service := s' } : Hosting).project.ids.length ≤
      UInt32.size := by
    rw [length]
    decide
  obtain ⟨-, -, -, linked, -⟩ := run.linkage (.refl _) few
  -- the bundle has one entry, and it is built for the second client
  obtain ⟨entry, rfl, code⟩ : ∃ entry, entries = [entry] ∧ entry.code = requiring := by
    obtain ⟨entry, rest, rfl, code, none_⟩ := List.map_eq_cons_iff.mp codes
    exact ⟨entry, by rw [List.map_eq_nil_iff.mp none_], code⟩
  have told : (2, entry) ∈ more.map fun made => (made.client, made.entry) := by
    rw [all w job [entry] here waits' built']
    exact List.mem_singleton_self _
  obtain ⟨made, mem, told⟩ := List.mem_map.mp told
  obtain ⟨client, rfl⟩ := Prod.mk.inj told
  have mem := List.mem_append_right log mem
  exact ⟨_, _, run, few, ⟨made, mem, client, code, linked made mem⟩, sessions⟩

end Sample

end HotReload
