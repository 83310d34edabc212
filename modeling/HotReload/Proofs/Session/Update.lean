import HotReload.Proofs.Graph.WellFormed
import HotReload.Proofs.Session.Coherence
import HotReload.Proofs.Session.Delivery

/-!
# What an update says

An update is put together from what the reaction chose, what was built, and the graph that the
session has by then.  All three belong together: the inverse that is sent is that of the graph the
session is left with, the built modules are those that were chosen, and each comes with its own
addresses.

* `InverseMap.Transposes`: an inverse says what a graph says, the other way round.
* `Session.Discovered`: the graph of a session was discovered whole.
* `Payload.Carries`: what an update carries for a reaction.
* `Connection.Serves.updates_current`: what is said of all updates that are sent.
-/

namespace HotReload

/-! ### Inverses -/

/-- An inverse map is the transpose of the dependencies that a graph lists. -/
structure InverseMap.Transposes (inverse : InverseMap) (g : Graph) : Prop where
  mem_keys_iff : ∀ id, id ∈ inverse.keys ↔ ∃ m ∈ g.modules, m.id = id
  mem_dependents_iff : ∀ m ∈ g.modules, ∀ x, x ∈ inverse.dependents m.id ↔
    ∃ n ∈ g.modules, n.id = x ∧
      ∃ deps, g.dependencies? n.path = some deps ∧ deps.contains m.path = true
  ascending : inverse.Ascending

/-- **The inverse of a coherent graph** is its transpose. -/
theorem Graph.Coherent.transposes {entry : Path} {g : Graph} (h : g.Coherent entry) :
    g.inverse.Transposes g where
  mem_keys_iff := h.inverse_keys
  mem_dependents_iff m mem x := by
    rw [h.inverse_ascending.mem_dependents_iff, h.inverse_tells]
    constructor
    · rintro ⟨m', mem', n, here, same, rfl, d, child, path⟩
      -- a number is that of one module
      have found := (h.moduleWith m.id m).mpr ⟨mem, rfl⟩
      rw [(h.moduleWith m.id m').mpr ⟨mem', same⟩] at found
      obtain rfl := Option.some.inj found
      cases listed : g.dependencies? n.path with
      | none =>
        rw [children, show Assoc.get? g.shallow n.path = none from listed] at child
        cases child
      | some deps =>
        rw [children, show Assoc.get? g.shallow n.path = some deps from listed] at child
        exact ⟨n, here, rfl, deps, listed, List.contains_iff_exists_mem_beq.mpr ⟨d, child, path⟩⟩
    · rintro ⟨n, here, rfl, deps, listed, known⟩
      obtain ⟨d, child, path⟩ := List.contains_iff_exists_mem_beq.mp known
      refine ⟨m, mem, n, here, rfl, rfl, d, ?_, path⟩
      rwa [children, show Assoc.get? g.shallow n.path = some deps from listed]
  ascending := h.inverse_ascending

/-! ### Sessions whose graph was discovered -/

/-- The graph of a session was discovered whole, with modules that have the paths that were asked
for and numbers of their own. -/
def Session.Discovered (s : Session) : Prop :=
  ∃ heard, Orderly heard ∧ (Search.start s.platform s.entry).Answered heard (.ok s.graph)

theorem Session.Discovered.coherent {s : Session} (h : s.Discovered) :
    s.graph.Coherent s.entry := by
  obtain ⟨heard, orderly, answered⟩ := h
  exact answered.coherent orderly

namespace Progress

variable {s : Session} {change : Change} {heard : List Answer} {g : Graph} {reaction : Reaction}

/-- The graph that a reaction brings was discovered. -/
theorem Known.discovered (known : Known s change heard (.settled (.ok (g, reaction))))
    (orderly : Orderly heard) (d : s.Discovered) : { s with graph := g }.Discovered := by
  rcases known.graph with rfl | ⟨answer, rest, rfl, answered⟩
  · exact d
  · exact ⟨rest, orderly.of_subset fun _ mem => List.mem_cons_of_mem _ mem, answered⟩

/-- What is known of a reaction is sound. -/
theorem Known.sound {progress : Progress} (known : Known s change heard progress)
    (relevant : s.isRelevant change = true) : progress.Sound s change := by
  have first := start_sound relevant
  have looked : ∀ {m : Module}, start s change = .probing (.dependencies m) →
      s.graph.moduleAt? change.path = some m := by
    intro m asked
    rwa [asked] at first
  cases known with
  | first => exact first
  | unlisted asked => exact ⟨_, looked asked⟩
  | same asked => exact .alone (looked asked)
  | searching diverges | missed diverges =>
    obtain ⟨m, asked⟩ := diverges.asked
    exact ⟨m, looked asked⟩
  | found diverges =>
    obtain ⟨m, asked⟩ := diverges.asked
    exact .regraphed (looked asked) _

end Progress

/-- A file is dropped where it is gone. -/
theorem Session.Reacts.of_deleted {s : Session} {change : Change} {g : Graph} {m : Module}
    (h : s.Reacts change g (.deleted m)) :
    s.graph.moduleAt? change.path = some m ∧ change.isDeletion = true := by
  generalize same : Reaction.deleted m = reaction at h
  cases h with
  | unknown | asset | alone => cases same
  | deleted here gone =>
    cases same
    exact ⟨here, gone⟩
  | regraphed =>
    unfold Progress.regraphed at same
    split at same <;> cases same

/-- What is to be rebuilt belongs to the program. -/
theorem Session.Reacts.mem_of_chosen {s : Session} {change : Change} {g : Graph}
    {chosen : List Module} (h : s.Reacts change g (.rebuild chosen)) :
    ∀ m ∈ chosen, m ∈ g.modules := by
  generalize same : Reaction.rebuild chosen = reaction at h
  cases h with
  | unknown | deleted => cases same
  | asset =>
    cases same
    exact fun m mem => absurd mem List.not_mem_nil
  | alone here =>
    cases same
    exact List.forall_mem_singleton.mpr (Graph.mem_of_moduleAt? here).1
  | regraphed =>
    cases kept : g.containsPath change.path with
    | true =>
      obtain ⟨modules, found, -, known, -⟩ := Progress.regraphed_of_containsPath (s := s) kept
      rw [found] at same
      cases same
      exact known
    | false =>
      rw [Progress.regraphed_of_not_containsPath kept] at same
      cases same
      exact fun m mem => absurd mem List.not_mem_nil

namespace Connection

variable {c : Connection} {change : Change} {heard : List Answer} {moved : Moved}

/-- A change leaves a session with a graph that was discovered. -/
theorem Traced.discovered (h : Traced c change heard moved) (orderly : Orderly heard)
    (d : c.session.Discovered) : moved.1.session.Discovered := by
  cases h with
  | refused | skipped => exact d
  | probing _ _ session =>
    rw [session]
    exact d
  | building _ _ session _ known =>
    rw [session]
    exact known.discovered orderly d
  | failed _ _ session _ ends =>
    obtain ⟨active, same⟩ := ends.session
    rw [same, session]
    exact d
  | ended _ _ session known _ ends =>
    obtain ⟨active, same⟩ := ends.session
    rw [same, session]
    exact known.discovered (orderly.of_subset fun _ mem => List.mem_append_left _ mem) d

/-- **A client is served with graphs that were discovered.** -/
theorem Serves.discovered {σ : Type} {r : Resolver σ} {st : σ} (t : Serves r c st) :
    c.session.Discovered := by
  induction t with
  | @registered s s' platform entry sink heard seed id w sound answered orderly enrolled here =>
    rcases s.enrol_cases platform entry sink seed with
      ⟨fault, refusal, nextId, -, he⟩ | ⟨g, source, rfl, -, he⟩
    · rw [he] at enrolled
      cases enrolled
    · rw [he] at enrolled
      cases enrolled
      rw [sound.worker?_admitted_self] at here
      cases here
      exact ⟨heard, orderly, answered⟩
  | handled _ h orderly ih => exact h.traced.discovered orderly ih
  | stirred _ h ih =>
    obtain ⟨isAlive, isOpen, limit, -, rfl⟩ := h.frame
    exact ih

end Connection

/-! ### Updates -/

/-- What an update carries for the reaction to a change, with what was heard of a build. -/
inductive Payload.Carries (s : Session) (change : Change) (payload : Payload) :
    Reaction → List Answer → Prop where
  /-- All that was chosen is built, and each entry belongs to the module chosen in its place. -/
  | rebuild {chosen : List Module} {job : BuildJob} {built : List BuiltModule}
      (order : job.modules = chosen) (ids : built.map (·.id) = chosen.map (·.id))
      (modules : payload.modules = built.map fun b => ⟨b.id, b.code⟩)
      (sourceUrls : payload.sourceUrls = built.map (·.sourceUrl))
      (mapUrls : payload.mapUrls = built.map (·.mapUrl))
      (known : ∀ u ∈ payload.modules, u.id ∈ payload.inverse.keys)
      (deleted : payload.deleted = []) :
      Carries s change payload (.rebuild chosen) [.build job (.ok built)]
  /-- The file that is gone is dropped. -/
  | deletion {m : Module} (gone : change.isDeletion = true)
      (here : s.graph.moduleAt? change.path = some m) (modules : payload.modules = [])
      (sourceUrls : payload.sourceUrls = []) (mapUrls : payload.mapUrls = [])
      (deleted : payload.deleted = [m.id]) : Carries s change payload (.deleted m) []

/-- The lists of an update have one length. -/
theorem Payload.Carries.lengths {s : Session} {change : Change} {payload : Payload}
    {reaction : Reaction} {builds : List Answer} (h : payload.Carries s change reaction builds) :
    payload.sourceUrls.length = payload.modules.length ∧
      payload.mapUrls.length = payload.modules.length := by
  cases h with
  | rebuild _ _ modules sourceUrls mapUrls => simp [modules, sourceUrls, mapUrls]
  | deletion _ _ modules sourceUrls mapUrls => simp [modules, sourceUrls, mapUrls]

/-- A build has nothing, or an entry for each module that was ordered. -/
def Answer.isEmptyOrWhole : Answer → Bool
  | .build _ (.ok []) => true
  | a => a.isWhole

namespace Connection

/-- What a reaction yields, where it is an update. -/
theorem Yields.carries {s₀ s : Session} {endpoint : Endpoint} {reaction : Reaction}
    {builds : List Answer} {payload : Payload}
    (h : Yields s endpoint reaction builds (.ok (some payload)))
    (reacts : s₀.Reacts change s.graph reaction) (coherent : s.graph.Coherent s.entry)
    (whole : ∀ a ∈ builds, a.isEmptyOrWhole = true) :
    payload.inverse = s.graph.inverse ∧ payload.Carries s₀ change reaction builds := by
  generalize same : Except.ok (some payload) = result at h
  cases h with
  | irrelevant | nothing | unbuilt => cases same
  | deleted m =>
    cases same
    obtain ⟨here, gone⟩ := reacts.of_deleted
    exact ⟨rfl, .deletion gone here rfl rfl rfl rfl⟩
  | @built chosen job order built =>
    -- what is empty makes no update, and none of the chosen modules was left out of the order
    have member := reacts.mem_of_chosen
    have some : chosen ≠ [] := by
      rintro rfl
      cases order
    obtain ⟨job', order', modules⟩ := Session.jobFor?_of_mem endpoint member some
    rw [order] at order'
    cases order'
    cases built with
    | nil => cases same
    | cons b built =>
      have ids : (b :: built).map (·.id) = chosen.map (·.id) := by
        rw [← modules]
        exact eq_of_beq (whole _ (List.mem_singleton.mpr rfl))
      obtain rfl : payload = Payload.ofBuild (b :: built) s.graph.inverse :=
        Option.some.inj (Except.ok.inj same)
      refine ⟨rfl, .rebuild modules ids rfl rfl rfl (fun u mem => ?_) rfl⟩
      obtain ⟨b', mem', rfl⟩ := List.mem_map.mp mem
      have chosen_id : b'.id ∈ chosen.map (·.id) := ids ▸ List.mem_map_of_mem mem'
      obtain ⟨m, here, id⟩ := List.mem_map.mp chosen_id
      exact (coherent.inverse_keys b'.id).mpr ⟨m, member m here, id⟩

/-- What the client is sent of a change: nothing, or `update-start` and reports of a result. -/
theorem Traced.sends (h : Traced c change heard moved) :
    ∃ sent, moved.1.sink.accepted = c.sink.accepted ++ sent ∧
      ∀ payload, .update payload ∈ sent →
        ∃ (c₁ : Connection) (known builds : List Answer) (reaction : Reaction) (g : Graph),
          Opens c change ∧ c₁.session = { c.session with graph := g } ∧
          heard = known ++ builds ∧
          Progress.Known c.session change known (.settled (.ok (g, reaction))) ∧
          Yields c₁.session c₁.endpoint reaction builds (.ok (some payload)) ∧
          moved.1.session.graph = g := by
  have ends : ∀ {c₁ : Connection} {result : Except UpdateFault (Option Payload)},
      Began c c₁ → Ends c₁ result moved → ∃ sent,
        moved.1.sink.accepted = c.sink.accepted ++ sent ∧
        ∀ payload, .update payload ∈ sent → result = .ok (some payload) := by
    intro c₁ result b ends
    have reported : ∀ {payload}, .update payload ∈ reports result →
        result = .ok (some payload) := by
      intro payload mem
      rcases result with e | _ | payload' <;> simp [reports] at mem
      rw [mem]
    cases ends with
    | sent taken =>
      refine ⟨.updateStart :: reports result, ?_, fun payload mem => ?_⟩
      · show Sink.accepted _ = _
        rw [taken.accepted, b.sent, List.append_assoc]
        rfl
      · exact reported (by simpa using mem)
    | @left sink ms _ taken cut =>
      refine ⟨.updateStart :: ms, ?_, fun payload mem => ?_⟩
      · show Sink.accepted _ = _
        rw [taken.accepted, b.sent, List.append_assoc]
        rfl
      · exact reported (cut.subset (by simpa using mem))
  cases h with
  | refused | skipped =>
    exact ⟨[], (List.append_nil _).symm, fun _ mem => absurd mem List.not_mem_nil⟩
  | probing _ b | building _ b => exact ⟨[.updateStart], b.sent, by simp⟩
  | failed _ b _ _ e =>
    obtain ⟨sent, accepted, updates⟩ := ends b e
    refine ⟨sent, accepted, fun payload mem => ?_⟩
    cases updates payload mem
  | @ended c₁ g reaction result known builds _ o b session found yields e =>
    obtain ⟨sent, accepted, updates⟩ := ends b e
    refine ⟨sent, accepted, fun payload mem => ?_⟩
    obtain ⟨active, same⟩ := e.session
    obtain rfl := updates payload mem
    exact ⟨c₁, known, builds, reaction, g, o, session, rfl, found, yields, by rw [same, session]⟩

/-- **Every update describes the program as it is after the change.**  Its inverse is the transpose
of the graph that the session is left with.  For a rebuild, each entry belongs to the module that
the reaction chose in its place; for a deletion, all that is told is which file is gone. -/
theorem Serves.updates_current {σ : Type} {r : Resolver σ} {st st' : σ} (t : Serves r c st)
    (h : Handling r c change st heard moved st') (orderly : Orderly heard)
    (whole : ∀ a ∈ heard, a.isEmptyOrWhole = true) :
    ∃ sent, moved.1.sink.accepted = c.sink.accepted ++ sent ∧
      ∀ payload, .update payload ∈ sent →
        payload.inverse.Transposes moved.1.session.graph ∧
        payload.sourceUrls.length = payload.modules.length ∧
        payload.mapUrls.length = payload.modules.length ∧
        ∃ known builds reaction, heard = known ++ builds ∧
          Progress.Known c.session change known
            (.settled (.ok (moved.1.session.graph, reaction))) ∧
          payload.Carries c.session change reaction builds := by
  obtain ⟨sent, accepted, updates⟩ := h.traced.sends
  refine ⟨sent, accepted, fun payload mem => ?_⟩
  obtain ⟨c₁, known, builds, reaction, g, o, session, rfl, found, yields, graph⟩ :=
    updates payload mem
  have coherent := (found.discovered
    (orderly.of_subset fun _ mem => List.mem_append_left _ mem) t.discovered).coherent
  rw [← session] at coherent
  have reacts : c.session.Reacts change c₁.session.graph reaction := by
    rw [session]
    exact found.sound o.relevant
  obtain ⟨inverse, carries⟩ := yields.carries reacts coherent
    fun a mem => whole a (List.mem_append_right _ mem)
  obtain ⟨sources, maps⟩ := carries.lengths
  have same : moved.1.session.graph = c₁.session.graph := by rw [graph, session]
  refine ⟨?_, sources, maps, known, builds, reaction, rfl, graph ▸ found, carries⟩
  rw [inverse, same]
  exact coherent.transposes

end Connection

namespace Sample

theorem client_served : Connection.Serves Tree.resolver client grown := by
  have sound : ({} : Service).Sound := .new {}
  obtain ⟨g, source, found, enrolled, same⟩ := client_enrolled
  rw [← same]
  exact .of_discovery sound tree.showsFrom tree_apart found enrolled
    (sound.worker?_admitted_self _ _) grown

/-- The client is sent the new file and the edited one, with the inverse of its new graph. -/
theorem delivered_current : ∃ payload, .update payload ∈ delivered.1.1.sink.accepted ∧
    payload.modules.map (·.id) = [2, 1] ∧ payload.inverse = [(0, []), (1, [0]), (2, [1])] ∧
    payload.inverse.Transposes delivered.1.1.session.graph ∧
    ∃ known builds reaction, client.runHears Tree.resolver edit grown = known ++ builds ∧
      Progress.Known client.session edit known
        (.settled (.ok (delivered.1.1.session.graph, reaction))) ∧
      payload.Carries client.session edit reaction builds := by
  have facts : (delivered.1.1.sink.accepted.any fun
        | .update payload => payload.modules.map (·.id) == [2, 1] &&
            payload.inverse == [(0, []), (1, [0]), (2, [1])]
        | _ => false) = true ∧
      (∀ a ∈ client.runHears Tree.resolver edit grown, a.isEmptyOrWhole = true) ∧
      (grown.files.map (·.2.id)).Nodup := by
    decide +kernel
  obtain ⟨update, whole, ids⟩ := facts
  have orderly : Orderly (client.runHears Tree.resolver edit grown) :=
    .of_agrees (Tree.snapshot_apart ids)
      (Connection.Settled.hears (fun _ => .inl grown.showsFrom) _)
  obtain ⟨sent, accepted, updates⟩ := Connection.Serves.updates_current client_served
    (.of_run Tree.resolver rfl edit grown) orderly whole
  obtain ⟨message, mem, carried⟩ := List.any_eq_true.mp update
  cases message with
  | update payload =>
    obtain ⟨modules, inverse⟩ := Bool.and_eq_true_iff.mp carried
    have accepted : delivered.1.1.sink.accepted = sent := accepted
    obtain ⟨transposes, -, -, carries⟩ := updates payload (accepted ▸ mem)
    exact ⟨payload, mem, eq_of_beq modules, eq_of_beq inverse, transposes, carries⟩
  | updateStart | updateDone | error => cases carried

/-- Where the second file is deleted, the client is told so, and that the entry file had it. -/
example : (client.run Tree.resolver ⟨.deleted, part⟩ tree).1.1.sink.accepted =
    [.updateStart, .update (.deletion 1 [(0, []), (1, [0])]), .updateDone] := by decide +kernel

end Sample

end HotReload
