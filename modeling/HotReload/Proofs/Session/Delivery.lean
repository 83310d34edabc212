import HotReload.Proofs.Graph.Lookup
import HotReload.Proofs.Session.Cycle

/-!
# What a new graph delivers

A cycle can give its session a new graph.  The modules that are new in it are known to the session
from then on, and no later cycle compares them with an older graph.  So they reach the client in
this cycle or never.

* `Payload.Brings`: an update has the code that was built for a module.
* `Handling.delivers`: where the changed file still belongs to the program, the update of the cycle
  brings every new module, so that no path is known to the session whose code was not sent.  Where
  it does not, the cycle sends no update.
* `newcomer_withheld`: of two files edited at once the one that drops out of the program is handled
  first; the modules that the other one brought in are not sent.
-/

namespace HotReload

/-- The reaction to a new graph that has no place for the changed file is to rebuild nothing. -/
theorem Progress.regraphed_of_not_containsPath {s : Session} {change : Change} {g : Graph}
    (h : g.containsPath change.path = false) : Progress.regraphed s change g = .rebuild [] := by
  rw [← Graph.isSome_moduleAt?, Option.isSome_eq_false_iff, Option.isNone_iff_eq_none] at h
  unfold Progress.regraphed
  rw [h]

/-- The reaction to a new graph that has a place for the changed file is to rebuild modules of that
graph, all new ones and at least one. -/
theorem Progress.regraphed_of_containsPath {s : Session} {change : Change} {g : Graph}
    (h : g.containsPath change.path = true) :
    ∃ modules, Progress.regraphed s change g = .rebuild modules ∧ modules ≠ [] ∧
      (∀ m ∈ modules, m ∈ g.modules) ∧ ∀ m ∈ g.addedSince s.graph, m ∈ modules := by
  rw [← Graph.isSome_moduleAt?, Option.isSome_iff_exists] at h
  obtain ⟨changed, hc⟩ := h
  have hmem : changed ∈ g.addedSince s.graph ++ [changed] := List.mem_concat_self
  refine ⟨Graph.orderLeafFirst (g.addedSince s.graph ++ [changed]) (Graph.rank s.entry g.shallow),
    by simp only [regraphed, hc], fun hnil => ?_, fun m hm => ?_, fun m hm => ?_⟩
  · rw [← Graph.mem_orderLeafFirst, hnil] at hmem
    cases hmem
  · rcases List.mem_append.mp (Graph.mem_orderLeafFirst.mp hm) with hm | hm
    · exact (Graph.mem_addedSince.mp hm).1
    · rw [List.mem_singleton.mp hm]
      exact (Graph.mem_of_moduleAt? hc).1
  · exact Graph.mem_orderLeafFirst.mpr (List.mem_append_left _ hm)

/-- Modules of the session's graph are all ordered. -/
theorem Session.jobFor?_of_mem {s : Session} {modules : List Module} (endpoint : Endpoint)
    (h : ∀ m ∈ modules, m ∈ s.graph.modules) (some_ : modules ≠ []) :
    ∃ job, s.jobFor? endpoint modules = some job ∧ job.modules = modules := by
  have hall : modules.filter (fun m => s.graph.containsPath m.path) = modules :=
    List.filter_eq_self.mpr fun m hm => Graph.containsPath_of_mem (h m hm)
  rcases s.jobFor?_cases endpoint modules with ⟨-, hnil⟩ | ⟨job, hjob, -, hm, -⟩
  · exact absurd (hall ▸ hnil) some_
  · exact ⟨job, hjob, hm.trans hall⟩

/-! ### The code that is sent -/

/-- An update brings a module with its code: the module was ordered, and the update has what was
built in its place, under its number. -/
def Payload.Brings (payload : Payload) (heard : List Answer) (m : Module) : Prop :=
  ∃ job built entry, .build job (.ok built) ∈ heard ∧ (m, entry) ∈ job.modules.zip built ∧
    entry.id = m.id ∧ ⟨m.id, entry.code⟩ ∈ payload.modules

/-- A build with an entry for each module of an order has one in the place of each. -/
theorem BuildJob.exists_entry {job : BuildJob} {built : List BuiltModule}
    (entries : built.map (·.id) = job.modules.map (·.id)) {m : Module} (hm : m ∈ job.modules) :
    ∃ entry, (m, entry) ∈ job.modules.zip built ∧ entry.id = m.id := by
  have length : built.length = job.modules.length := by simpa using congrArg List.length entries
  obtain ⟨i, here, rfl⟩ := List.getElem_of_mem hm
  have there : i < built.length := length ▸ here
  refine ⟨built[i], List.mem_iff_getElem.mpr ⟨i, ?_, List.getElem_zip⟩, ?_⟩
  · rw [List.length_zip, length, Nat.min_self]
    exact here
  · have same := congrArg (·[i]?) entries
    simpa [there, here] using same

/-- A build with an entry for each module of an order that is not empty makes an update that brings
all of them. -/
theorem Session.updateFor_of_entries {s : Session} {job : BuildJob} {built : List BuiltModule}
    (entries : built.map (·.id) = job.modules.map (·.id)) (some_ : job.modules ≠ [])
    {heard : List Answer} (delivered : .build job (.ok built) ∈ heard) :
    ∃ payload, s.updateFor built = some payload ∧ ∀ m ∈ job.modules, payload.Brings heard m := by
  have hb : built ≠ [] := by
    intro h
    rw [h] at entries
    exact some_ (List.map_eq_nil_iff.mp entries.symm)
  refine ⟨Payload.ofBuild built s.graph.inverse, ?_, fun m hm => ?_⟩
  · rw [updateFor, if_neg (by rwa [List.isEmpty_iff])]
  · obtain ⟨entry, place, id⟩ := BuildJob.exists_entry entries hm
    refine ⟨job, built, entry, delivered, place, id, ?_⟩
    rw [← id]
    exact List.mem_map_of_mem (List.of_mem_zip place).2

namespace Connection

/-- **New modules are in the result of the cycle** that found them, where the changed file is still
part of the program, every question is answered, and a build has an entry for each module. -/
theorem Comes.update_of_kept {c : Connection} {change : Change} {heard : List Answer} {g : Graph}
    {result : Except UpdateFault (Option Payload)} (comes : Comes c change heard g result)
    (answered : ∀ a ∈ heard, a.isOk = true) (whole : ∀ a ∈ heard, a.isWhole = true)
    (kept : g.containsPath change.path = true) {m : Module}
    (hm : m ∈ g.addedSince c.session.graph) :
    ∃ payload, result = .ok (some payload) ∧ payload.Brings heard m := by
  -- a reaction that leaves the graph as it was adds nothing to it, so the graph is a new one
  have regraphed : ∀ {reaction : Reaction}, c.session.Reacts change g reaction →
      ∃ modules job, reaction = .rebuild modules ∧
        { c.session with graph := g }.jobFor? c.endpoint modules = some job ∧
        job.modules ≠ [] ∧ m ∈ job.modules := by
    intro reaction h
    cases h with
    | unknown | deleted | asset | alone => exact absurd hm (Graph.not_mem_addedSince_self _ m)
    | regraphed =>
      obtain ⟨modules, hr, hne, hmem, hadded⟩ := Progress.regraphed_of_containsPath
        (s := c.session) kept
      obtain ⟨job, hjob, hjm⟩ := Session.jobFor?_of_mem
        (s := { c.session with graph := g }) c.endpoint hmem hne
      exact ⟨modules, job, hr, hjob, hjm ▸ hne, hjm ▸ hadded m hm⟩
  cases comes with
  | fault => exact absurd hm (Graph.not_mem_addedSince_self _ m)
  | irrelevant _ h | deleted _ h =>
    obtain ⟨_, _, hr, -⟩ := regraphed h
    cases hr
  | nothing _ h hjob =>
    obtain ⟨_, _, hr, hjob', -⟩ := regraphed h
    cases hr
    rw [hjob] at hjob'
    cases hjob'
  | @built heard _ modules job _ h hjob built =>
    obtain ⟨_, job', hr, hjob', hne, hmj⟩ := regraphed h
    cases hr
    rw [hjob] at hjob'
    cases hjob'
    have delivered : .build job (.ok built) ∈ heard ++ [.build job (.ok built)] :=
      List.mem_append_right _ (List.mem_singleton.mpr rfl)
    have entries : built.map (·.id) = job.modules.map (·.id) := eq_of_beq (whole _ delivered)
    obtain ⟨payload, hp, brings⟩ := Session.updateFor_of_entries
      (s := { c.session with graph := g }) entries hne delivered
    exact ⟨payload, by rw [hp], brings m hmj⟩
  | unbuilt =>
    have := answered _ (List.mem_append_right _ (List.mem_singleton.mpr rfl))
    cases this

/-- A cycle whose changed file has dropped out of the program has nothing to send. -/
theorem Comes.nothing_of_dropped {c : Connection} {change : Change} {heard : List Answer}
    {g : Graph} {result : Except UpdateFault (Option Payload)} (comes : Comes c change heard g result)
    (dropped : g.containsPath change.path = false) : result = .ok none := by
  have known : ∀ {m : Module}, g.moduleAt? change.path = some m → False := fun h => by
    rw [Graph.containsPath_of_moduleAt? h] at dropped
    cases dropped
  have nothing : ∀ {reaction : Reaction}, c.session.Reacts change g reaction →
      reaction = .irrelevant ∨ reaction = .rebuild [] := by
    intro reaction h
    cases h with
    | unknown => exact .inl rfl
    | deleted h | asset h | alone h => exact (known h).elim
    | regraphed => exact .inr (Progress.regraphed_of_not_containsPath dropped)
  cases comes with
  | fault _ h => exact (known h).elim
  | irrelevant | nothing => rfl
  | deleted _ h => rcases nothing h with hr | hr <;> cases hr
  | built _ h hjob | unbuilt _ h hjob =>
    rcases nothing h with hr | hr
    · cases hr
    · cases hr
      cases hjob

/-- Between two states of a connection a module reached the client: all that was sent is one update,
and it brings the module with the code that was built. -/
def Delivers (c c' : Connection) (heard : List Answer) (m : Module) : Prop :=
  ∃ payload, c'.sink.accepted = c.sink.accepted ++ [.updateStart, .update payload, .updateDone] ∧
    payload.Brings heard m

/-- In a cycle whose client stays, whose questions are all answered and whose build is whole, the
update brings all new modules, where the changed file is kept; where it is dropped there is none. -/
theorem Handling.delivers_added {σ : Type} {r : Resolver σ} {c c' : Connection} {change : Change}
    {st st' : σ} {heard : List Answer} {outcome : Outcome}
    (h : Handling r c change st heard (c', some outcome) st') (stays : outcome ≠ .discarded)
    (answered : ∀ a ∈ heard, a.isOk = true) (whole : ∀ a ∈ heard, a.isWhole = true) :
    (c'.session.graph.containsPath change.path = true →
      ∀ m ∈ c'.session.graph.addedSince c.session.graph, c.Delivers c' heard m) ∧
    (c'.session.graph.containsPath change.path = false → c.session.isRelevant change = true →
      c'.sink.accepted = c.sink.accepted ++ [.updateStart, .updateDone]) := by
  have handled := h.handled
  generalize hm : (c', some outcome) = moved at handled
  cases handled with
  | waiting => cases hm
  | refused =>
    obtain ⟨-, ho⟩ := Prod.mk.inj hm
    exact absurd (Option.some.inj ho) stays
  | skipped irrelevant =>
    obtain ⟨rfl, -⟩ := Prod.mk.inj hm
    refine ⟨fun _ m hm => absurd hm (Graph.not_mem_addedSince_self _ m), fun _ relevant => ?_⟩
    rw [irrelevant] at relevant
    cases relevant
  | @ended c₁ g result _ _ b session comes ends =>
    cases ends with
    | left =>
      obtain ⟨-, ho⟩ := Prod.mk.inj hm
      exact absurd (Option.some.inj ho) stays
    | @sent sink hs =>
      obtain ⟨rfl, -⟩ := Prod.mk.inj hm
      have hg : c₁.session.graph = g := by rw [session]
      refine ⟨fun kept m hm => ?_, fun dropped _ => ?_⟩
      · obtain ⟨payload, rfl, brings⟩ :=
          comes.update_of_kept answered whole (hg ▸ kept) (hg ▸ hm)
        refine ⟨payload, ?_, brings⟩
        rw [hs.accepted, b.sent, List.append_assoc]
        rfl
      · have hr : result = .ok none := comes.nothing_of_dropped (hg ▸ dropped)
        rw [hs.accepted, b.sent, List.append_assoc, hr]
        rfl

/-- **What a new graph delivers.**  In a cycle whose client stays, whose questions are all answered
and whose build has an entry for each module that was asked for:

* where the new graph has the changed file, the update brings every module whose path is in the new
  graph and was not in the old one, and so no path becomes known without its code being sent;
* where it does not, the cycle sends `update-start` and `update-done` alone. -/
theorem Handling.delivers {σ : Type} {r : Resolver σ} {c c' : Connection} {change : Change}
    {st st' : σ} {heard : List Answer} {outcome : Outcome}
    (h : Handling r c change st heard (c', some outcome) st') (stays : outcome ≠ .discarded)
    (answered : ∀ a ∈ heard, a.isOk = true) (whole : ∀ a ∈ heard, a.isWhole = true) :
    (c'.session.graph.containsPath change.path = true →
      (∀ m ∈ c'.session.graph.addedSince c.session.graph, c.Delivers c' heard m) ∧
      ∀ p, c'.session.graph.containsPath p = true → c.session.graph.containsPath p = false →
        ∃ m ∈ c'.session.graph.modules, (m.path == p) = true ∧ c.Delivers c' heard m) ∧
    (c'.session.graph.containsPath change.path = false → c.session.isRelevant change = true →
      c'.sink.accepted = c.sink.accepted ++ [.updateStart, .updateDone]) := by
  obtain ⟨added, dropped⟩ := h.delivers_added stays answered whole
  refine ⟨fun kept => ⟨added kept, fun p after before => ?_⟩, dropped⟩
  -- a path that becomes known is that of a new module
  obtain ⟨m, mem, same⟩ := List.any_eq_true.mp after
  rw [← Graph.containsPath_congr same] at before
  exact ⟨m, mem, same, added kept m (Graph.mem_addedSince.mpr ⟨mem, before⟩)⟩

end Connection

namespace Sample

/-- The update with the new file and the edited one. -/
def newcomerUpdate : Payload where
  modules :=
    [⟨2, "__d(function(global, require, module, exports) \x7b\n\n\x7d, 2);"⟩,
     ⟨1, "__d(function(global, require, module, exports) \x7b\n\n\x7d, 1);"⟩]
  inverse := [(0, []), (1, [0]), (2, [1])]
  sourceUrls := ["http://localhost:8081/new?platform=ios", "http://localhost:8081/part?platform=ios"]
  mapUrls :=
    ["http://localhost:8081/new?platform=ios&map=true",
     "http://localhost:8081/part?platform=ios&map=true"]

/-- The new file is new in the client's graph, and the update has its code. -/
theorem newcomer_delivered :
    delivered.1.2 = some (.updated 2) ∧
    delivered.1.1.sink.accepted = [.updateStart, .update newcomerUpdate, .updateDone] ∧
    (delivered.1.1.session.graph.addedSince client.session.graph).map (·.path.text) = ["/new"] ∧
    (∀ m ∈ delivered.1.1.session.graph.addedSince client.session.graph,
      client.Delivers delivered.1.1 (client.runHears Tree.resolver edit grown) m) ∧
    ∃ m ∈ delivered.1.1.session.graph.modules, (m.path == newcomer) = true ∧
      client.Delivers delivered.1.1 (client.runHears Tree.resolver edit grown) m := by
  have facts : delivered.1.2 = some (.updated 2) ∧
      delivered.1.1.sink.accepted = [.updateStart, .update newcomerUpdate, .updateDone] ∧
      (delivered.1.1.session.graph.addedSince client.session.graph).map (·.path.text) =
        ["/new"] ∧
      delivered.1.1.session.graph.containsPath edit.path = true ∧
      delivered.1.1.session.graph.containsPath newcomer = true ∧
      client.session.graph.containsPath newcomer = false ∧
      ∀ a ∈ client.runHears Tree.resolver edit grown, a.isOk = true ∧ a.isWhole = true := by
    decide +kernel
  obtain ⟨outcome, sent, added, kept, after, before, answers⟩ := facts
  have h := Connection.Handling.of_run_outcome rfl outcome
  obtain ⟨modules, paths⟩ := (Connection.Handling.delivers h (by decide)
    (fun a ha => (answers a ha).1) fun a ha => (answers a ha).2).1 kept
  exact ⟨outcome, sent, added, modules, paths newcomer after before⟩

/-- The client takes up the edit of the second file first. -/
def withheld : Connection.Moved × Tree := client.run Tree.resolver edit swapped

/-- **A new module can be withheld**: the edit of a file that drops out of the program brings the
new file into the client's graph, with every question answered, and no update is sent. -/
theorem newcomer_withheld :
    ¬ ∀ (c' : Connection) (st' : Tree) (heard : List Answer) (outcome : Outcome),
      Connection.Handling Tree.resolver client edit swapped heard (c', some outcome) st' →
      edit.isDeletion = false → outcome ≠ .discarded →
      (∀ a ∈ heard, a.isOk = true) → (∀ a ∈ heard, a.isWhole = true) →
      ∀ m ∈ c'.session.graph.addedSince client.session.graph, client.Delivers c' heard m := by
  intro claim
  have facts : withheld.1.2 = some .unchanged ∧
      (∀ a ∈ client.runHears Tree.resolver edit swapped, a.isOk = true ∧ a.isWhole = true) ∧
      withheld.1.1.sink.accepted = [.updateStart, .updateDone] ∧
      withheld.1.1.session.graph.addedSince client.session.graph ≠ [] := by
    decide +kernel
  obtain ⟨outcome, answers, sent, added⟩ := facts
  have h := Connection.Handling.of_run_outcome rfl outcome
  obtain ⟨m, hm⟩ := List.exists_mem_of_ne_nil _ added
  obtain ⟨payload, hsent, -⟩ := claim _ _ _ _ h rfl (by decide)
    (fun a ha => (answers a ha).1) (fun a ha => (answers a ha).2) m hm
  have cut := sent.symm.trans hsent
  cases cut

end Sample

end HotReload
