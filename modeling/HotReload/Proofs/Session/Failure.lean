import HotReload.Proofs.Session.After

/-!
# Failures

A cycle that fails has told its client so, and the client stays connected.  Its session is what it
was, but for the graph: from the moment the reaction is found the session has the graph that it
brought, and a build can fail after that.

A connection whose session is what it was goes on as if the failure had not been.

* `Handling.intact_iff`: a failure leaves the session as it was exactly where no build failed that
  was ordered with a new graph, and then the client is sent from there on what it would have been
  sent without the failure.
* `failure_forgets`: a build that fails after a new graph was found leaves that graph.
-/

namespace HotReload.Connection

theorem Handling.idle {σ : Type} {r : Resolver σ} {c : Connection} {change : Change} {st st' : σ}
    {heard : List Answer} {moved : Moved} (h : Handling r c change st heard moved st') :
    c.cycle = none := by
  induction h with
  | start idle => exact idle
  | step _ _ ih => exact ih
  | stir _ _ ih => exact ih

/-- The outcome of a fault that does not concern the entry file. -/
theorem outcomeOf_eq_failed {result : Except UpdateFault (Option Payload)}
    (h : outcomeOf result = .failed) :
    losesEntry result = false ∧ ∃ fault, result = .error fault := by
  rcases result with fault | _ | payload
  · cases lost : fault.isEntryLost with
    | true =>
      rw [outcomeOf, lost] at h
      cases h
    | false => exact ⟨lost, fault, rfl⟩
  · cases h
  · cases h

/-- **A failed cycle** leaves an idle connection.  Its session has the graph that the reaction
brought. -/
theorem Handled.failed {c c' : Connection} {change : Change} {heard : List Answer}
    (h : Handled c change heard (c', some .failed)) :
    ∃ g fault, Comes c change heard g (.error fault) ∧
      c'.session = { c.session with graph := g } ∧
      c'.endpoint = c.endpoint ∧ c'.phase = .idle ∧ c'.cycle = none := by
  generalize hm : (c', some Outcome.failed) = moved at h
  cases h with
  | waiting => cases hm
  | refused => cases hm
  | skipped => cases hm
  | @ended c₁ g result _ opens b session comes ends =>
    cases ends with
    | left => cases hm
    | sent =>
      obtain ⟨rfl, ho⟩ := Prod.mk.inj hm
      obtain ⟨kept, fault, rfl⟩ := outcomeOf_eq_failed (Option.some.inj ho).symm
      refine ⟨g, fault, comes, ?_, b.endpoint, ?_, rfl⟩
      · simp [session, kept]
      · simp [kept]

/-- The graph that a failed cycle leaves is the old one exactly where no build failed that was
ordered with another graph. -/
theorem Comes.graph_eq_iff {c : Connection} {change : Change} {heard : List Answer} {g : Graph}
    {fault : UpdateFault} (comes : Comes c change heard g (.error fault)) :
    g = c.session.graph ↔
      ∀ job e, Answer.build job (.error e) ∈ heard → job.resolution = c.session.resolution := by
  generalize hr : (Except.error fault : Except UpdateFault (Option Payload)) = result at comes
  cases comes with
  | fault unbuilt =>
    refine ⟨fun _ job e mem => ?_, fun _ => rfl⟩
    have := unbuilt _ mem
    cases this
  | irrelevant | deleted | nothing | built => cases hr
  | @unbuilt heard _ modules job unbuilt _ hjob e =>
    -- an order tells of the graph that the session had when it was made
    have known : job.resolution = ⟨g.modules, g.shallow⟩ := by
      rcases ({ c.session with graph := g } : Session).jobFor?_cases c.endpoint modules with
        ⟨hnone, -⟩ | ⟨job', hjob', hres, -⟩
      · rw [hnone] at hjob
        cases hjob
      · rw [hjob'] at hjob
        cases hjob
        exact hres
    constructor
    · rintro rfl job' e' mem
      rcases List.mem_append.mp mem with mem | mem
      · have := unbuilt _ mem
        cases this
      · cases List.mem_singleton.mp mem
        exact known
    · intro old
      have eq := old job e (List.mem_append_right _ (List.mem_singleton.mpr rfl))
      rw [known, Session.resolution, Resolution.mk.injEq] at eq
      rcases g with ⟨modules, shallow⟩
      obtain ⟨rfl, rfl⟩ := eq
      rfl

/-- **When a failure leaves a session intact.**  A failed cycle changes nothing of its session but
the graph.  The session is what it was exactly where no build failed that was ordered with another
graph.  If so, and the client is there, every change that comes next has the courses that it would
have had without the failed cycle. -/
theorem Handling.intact_iff {σ : Type} {r : Resolver σ} {c c' : Connection} {change : Change}
    {st st' : σ} {heard : List Answer}
    (h : Handling r c change st heard (c', some .failed) st') :
    (∃ g, c'.session = { c.session with graph := g }) ∧
    (c'.session = c.session ↔
      ∀ job e, Answer.build job (.error e) ∈ heard → job.resolution = c.session.resolution) ∧
    (c'.session = c.session → c.phase = .idle → Present c → Present c' →
      ∀ (τ : Type) (r' : Resolver τ) (next : Change) (now then_ : τ) (answers : List Answer)
        (ms : List Message) (session : Session) (outcome : Outcome),
        Course r' c' next now answers ms session outcome then_ ↔
          Course r' c next now answers ms session outcome then_) := by
  obtain ⟨g, fault, comes, session, endpoint, phase, cycle⟩ := h.handled.failed
  have intact : c'.session = c.session ↔ g = c.session.graph := by
    rw [session]
    constructor
    · intro same
      exact congrArg Session.graph same
    · rintro rfl
      rfl
  refine ⟨⟨g, session⟩, intact.trans comes.graph_eq_iff, ?_⟩
  intro same idle hc hc' τ r' next now then_ answers ms session' outcome
  rw [hc'.course_iff, hc.course_iff, same, endpoint, phase, cycle, hc'.isAlive, hc.isAlive, idle,
    h.idle]

end HotReload.Connection

namespace HotReload.Sample

/-- The second file cannot be read. -/
def unreadable : Tree := tree.fail part (.transform part "" none)

/-- The client takes up the edit of a file that cannot be read. -/
def unread : Connection.Moved × Tree := client.run Tree.resolver edit unreadable

/-- The failed lookup leaves the client as it was: once the file can be read, the edit is delivered
as it would have been. -/
theorem unread_intact :
    unread.1.2 = some .failed ∧ unread.1.1.session = client.session ∧
    ∃ ms, Connection.Course Tree.resolver unread.1.1 edit grown
      (client.runHears Tree.resolver edit grown) ms delivered.1.1.session (.updated 2)
      delivered.2 := by
  have facts : unread.1.2 = some .failed ∧
      (∀ a ∈ client.runHears Tree.resolver edit unreadable, a.isBuild = false) ∧
      (unread.1.1.isAlive = true ∧ unread.1.1.sink.isOpen = true ∧
        unread.1.1.sink.limit = none) ∧
      delivered.1.2 = some (.updated 2) := by
    decide +kernel
  obtain ⟨outcome, unbuilt, ⟨isAlive, isOpen, unlimited⟩, updated⟩ := facts
  have h := Connection.Handling.of_run_outcome rfl outcome
  obtain ⟨-, intact, retry⟩ := Connection.Handling.intact_iff h
  have same : unread.1.1.session = client.session := by
    refine intact.mpr fun job e mem => ?_
    have := unbuilt _ mem
    cases this
  refine ⟨outcome, same, delivered.1.1.sink.accepted, ?_⟩
  refine (retry same rfl ⟨rfl, rfl, rfl⟩ ⟨isAlive, isOpen, unlimited⟩ Tree Tree.resolver edit grown
    delivered.2 _ _ _ _).mpr ?_
  exact ⟨delivered.1.1, .of_run_outcome rfl updated, rfl, rfl⟩

/-- The new file cannot be built. -/
def unbuildable : Tree := grown.failAt .build newcomer (.other "")

/-- The client takes up an edit that brings in a file which cannot be built. -/
def unbuilt : Connection.Moved × Tree := client.run Tree.resolver edit unbuildable

/-- **A failure can leave a new graph**: the build fails after the session got the graph with the
new file.  From then on the file counts as known and is not sent. -/
theorem failure_forgets :
    ¬ ∀ (c' : Connection) (st' : Tree) (heard : List Answer),
      Connection.Handling Tree.resolver client edit unbuildable heard (c', some .failed) st' →
      c'.session = client.session := by
  intro claim
  have facts : unbuilt.1.2 = some .failed ∧
      unbuilt.1.1.session.graph.modules.length ≠ client.session.graph.modules.length := by
    decide +kernel
  obtain ⟨outcome, grew⟩ := facts
  have h := Connection.Handling.of_run_outcome rfl outcome
  have intact : unbuilt.1.1.session = client.session := claim _ _ _ h
  exact grew (by rw [intact])

end HotReload.Sample
