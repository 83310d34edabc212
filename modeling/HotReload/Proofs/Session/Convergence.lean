import HotReload.Proofs.Graph.SideBySide
import HotReload.Proofs.Session.Cycle

/-!
# Convergence

A session looks at one changed file at a time, and discovers its graph anew only where that file has
other dependencies than before.  While the files stay as they are it makes no difference in which
order it is told of the changes, how often, and what else it is told of: once it was told of every
file of its graph that has other dependencies now, its graph is the one that a discovery finds.

A changed file either leaves the graph as it is or brings the graph that a discovery finds, and that
graph stays.  If no changed file brought it, no file that is listed in the old graph has other
dependencies, and then two discoveries side by side find the same.

* `Session.Differs`: a file of the graph has other dependencies than the graph says.
* `Session.reactAll_cases`: what a session is left with after some changes.
* `Session.reactAll_converges`: the graph after all of them.
-/

namespace HotReload

/-! ### One change -/

/-- In a snapshot, a source file of the session's graph has other dependencies than the graph
says. -/
inductive Session.Differs (v : Snapshot) (s : Session) (p : Path) : Prop
  | intro {m : Module} {cached current : List Path} (module : s.graph.moduleAt? p = some m)
      (kind : m.kind = .source) (listed : s.graph.dependencies? p = some cached)
      (found : v.dependencies ⟨s.platform, p, s.entry⟩ = .ok current)
      (differs : (current == cached) = false)

/-- For a change of a source file the first question is for its dependencies. -/
theorem Progress.start_source {s : Session} {change : Change} {m : Module} {cached : List Path}
    (modified : change.isDeletion = false) (hm : s.graph.moduleAt? change.path = some m)
    (kind : m.kind = .source) (hd : s.graph.dependencies? change.path = some cached) :
    start s change = .probing (.dependencies m) := by
  simp [start, Session.isRelevant, hd, hm, modified, kind]

/-- Every other change is settled at the first look, without another graph. -/
theorem Progress.start_cases {s : Session} {change : Change} (modified : change.isDeletion = false) :
    (∃ reaction, start s change = .settled (.ok (s.graph, reaction))) ∨
    ∃ m cached, s.graph.moduleAt? change.path = some m ∧ m.kind = .source ∧
      s.graph.dependencies? change.path = some cached := by
  cases hd : s.graph.dependencies? change.path with
  | none => exact .inl ⟨.irrelevant, by simp [start, Session.isRelevant, hd]⟩
  | some cached =>
    cases hm : s.graph.moduleAt? change.path with
    | none => exact .inl ⟨.irrelevant, by simp [start, Session.isRelevant, hd, hm]⟩
    | some m =>
      cases kind : m.kind with
      | asset =>
        exact .inl ⟨.rebuild [], by simp [start, Session.isRelevant, hd, hm, modified, kind]⟩
      | json =>
        exact .inl ⟨.rebuild [m], by simp [start, Session.isRelevant, hd, hm, modified, kind]⟩
      | source => exact .inr ⟨m, cached, rfl, kind, rfl⟩

theorem Progress.run_settled {σ : Type} (r : Resolver σ) (s : Session) (change : Change)
    (fuel : Nat) (verdict : Verdict) (st : σ) :
    (settled verdict).run r s change fuel st = (some verdict, st) := by
  cases fuel <;> rfl

/-- Asking for the graph is discovering it. -/
theorem Progress.run_graph {σ : Type} (r : Resolver σ) (s : Session) (change : Change) (fuel : Nat)
    (search : Search) (st : σ) :
    (Progress.probing (.graph search)).run r s change fuel st =
      match search.run r fuel st with
      | (none, st) => (none, st)
      | (some (.error fault), st) => (some (.error (searchFault s fault)), st)
      | (some (.ok g), st) => (some (.ok (g, regraphed s change g)), st) := by
  induction fuel generalizing search st with
  | zero => rfl
  | succ fuel ih =>
    rw [run, Search.run, Probe.next, Query.answer_map]
    rcases search.next.answer r st with ⟨fault | search' | g, st'⟩
    · exact run_settled ..
    · exact ih search' st'
    · exact run_settled ..

/-- While a snapshot is shown, a verdict is reached as on the snapshot. -/
theorem Progress.run_of_showsFrom {σ : Type} {r : Resolver σ} {v : Snapshot} {st : σ}
    (h : r.ShowsFrom st v) (s : Session) (change : Change) (fuel : Nat) (progress : Progress) :
    (progress.run r s change fuel st).1 = (progress.run v.resolver s change fuel ()).1 ∧
      r.ShowsFrom (progress.run r s change fuel st).2 v := by
  induction fuel generalizing progress st with
  | zero => cases progress <;> exact ⟨rfl, h⟩
  | succ fuel ih =>
    cases progress with
    | settled verdict => exact ⟨rfl, h⟩
    | probing probe =>
      obtain ⟨hanswer, h'⟩ := Query.answer_of_showsFrom h (probe.next s change)
      rw [run, run]
      generalize (probe.next s change).answer r st = asked at hanswer h'
      generalize (probe.next s change).answer v.resolver () = asked' at hanswer
      obtain ⟨progress, st'⟩ := asked
      obtain ⟨progress', _⟩ := asked'
      cases hanswer
      exact ih h' progress

/-- What a session is left with after a verdict. -/
def Session.settled (s : Session) : Option Verdict → Session
  | some (.ok (graph, _)) => { s with graph }
  | _ => s

theorem Session.react_session {σ : Type} (r : Resolver σ) (s : Session) (change : Change) (st : σ) :
    (s.react r change st).2 =
      (s.settled ((Progress.start s change).run r s change (r.bound st + 1) st).1,
        ((Progress.start s change).run r s change (r.bound st + 1) st).2) := by
  unfold react
  rcases (Progress.start s change).run r s change (r.bound st + 1) st with
    ⟨_ | fault | ⟨g, reaction⟩, st'⟩ <;> rfl

theorem Session.react_of_showsFrom {σ : Type} {r : Resolver σ} {v : Snapshot} {st : σ}
    (h : r.ShowsFrom st v) (s : Session) (change : Change) :
    (s.react r change st).2.1 = (s.react v.resolver change ()).2.1 ∧
      r.ShowsFrom (s.react r change st).2.2 v := by
  obtain ⟨hrun, h'⟩ := Progress.run_of_showsFrom h s change (v.bound + 1)
    (Progress.start s change)
  rw [react_session, react_session, h.bound]
  exact ⟨congrArg s.settled hrun, h'⟩

section OnSnapshot

variable {v : Snapshot} {s : Session} {change : Change}

/-- The question for the dependencies of the changed file, answered. -/
theorem Progress.run_dependencies (fuel : Nat) (m : Module) :
    (Progress.probing (.dependencies m)).run v.resolver s change (fuel + 1) () =
      Progress.run v.resolver s change fuel
        (match v.dependencies ⟨s.platform, change.path, s.entry⟩ with
          | .error fault => .settled (.error (.ofResolve fault))
          | .ok current =>
            if current == (s.graph.dependencies? change.path).getD [] then
              .settled (.ok (s.graph, .rebuild [m]))
            else .probing (.graph (Search.start s.platform s.entry))) () := rfl

/-- **A file that has the dependencies that the graph says** leaves the session as it is. -/
theorem Session.react_of_not_differs (modified : change.isDeletion = false)
    (h : ¬ s.Differs v change.path) : (s.react v.resolver change ()).2.1 = s := by
  rw [react_session]
  rcases Progress.start_cases modified with ⟨reaction, hs⟩ | ⟨m, cached, hm, kind, hd⟩
  · rw [hs, Progress.run_settled]
    rfl
  · rw [Progress.start_source modified hm kind hd, Progress.run_dependencies]
    cases found : v.dependencies ⟨s.platform, change.path, s.entry⟩ with
    | error fault =>
      simp only [Progress.run_settled]
      rfl
    | ok current =>
      have same : (current == cached) = true := by
        by_cases heq : (current == cached) = true
        · exact heq
        · exact absurd (.intro hm kind hd found (Bool.not_eq_true _ ▸ heq)) h
      simp only [hd, Option.getD_some, same, if_true, Progress.run_settled]
      rfl

/-- **A file that has other dependencies** brings the graph that a discovery finds. -/
theorem Session.react_of_differs {g : Graph} (modified : change.isDeletion = false)
    (h : s.Differs v change.path)
    (discovered : (Search.discover v.resolver s.platform s.entry ()).1 = .ok g) :
    (s.react v.resolver change ()).2.1 = { s with graph := g } := by
  obtain ⟨hm, kind, hd, found, differs⟩ := h
  have search := Search.run_of_discover discovered
  rw [react_session, Progress.start_source modified hm kind hd, Progress.run_dependencies]
  simp only [found, hd, Option.getD_some, differs, Bool.false_eq_true, if_false,
    Progress.run_graph]
  generalize (Search.start s.platform s.entry).run v.resolver (v.resolver.bound ()) () = run at search
  obtain ⟨answer, _⟩ := run
  cases search
  rfl

end OnSnapshot

/-! ### Many changes -/

/-- The reactions to some changes, one after the other, whatever comes of each. -/
def Session.reactAll {σ : Type} (r : Resolver σ) : Session → List Change → σ → Session × σ
  | s, [], st => (s, st)
  | s, change :: changes, st =>
    let (_, s, st) := s.react r change st
    reactAll r s changes st

section ManyChanges

variable {σ : Type} {r : Resolver σ} {v : Snapshot} {s : Session} {changes : List Change} {st : σ}

theorem Session.reactAll_cons (r : Resolver σ) (s : Session) (c : Change) (cs : List Change)
    (st : σ) :
    s.reactAll r (c :: cs) st = (s.react r c st).2.1.reactAll r cs (s.react r c st).2.2 := rfl

/-- A session that says of every file what the snapshot says stays as it is. -/
theorem Session.reactAll_of_not_differs (h : r.ShowsFrom st v)
    (modified : ∀ c ∈ changes, c.isDeletion = false) (same : ∀ c ∈ changes, ¬ s.Differs v c.path) :
    (s.reactAll r changes st).1 = s := by
  induction changes generalizing st with
  | nil => rfl
  | cons c cs ih =>
    obtain ⟨hreact, h'⟩ := react_of_showsFrom h s c
    rw [react_of_not_differs (modified c List.mem_cons_self) (same c List.mem_cons_self)] at hreact
    rw [reactAll_cons, hreact]
    exact ih h' (fun c hc => modified c (List.mem_cons_of_mem _ hc))
      fun c hc => same c (List.mem_cons_of_mem _ hc)

/-- A graph that says what the snapshot says differs from it nowhere. -/
theorem Session.not_differs_of_listed (listed : s.graph.Listed v s.platform s.entry) (p : Path) :
    ¬ s.Differs v p := by
  rintro ⟨hm, kind, hd, found, differs⟩
  obtain ⟨deps, hdeps, heq⟩ := listed.dependencies_eq hm hd kind
  rw [found] at hdeps
  cases hdeps
  rw [heq] at differs
  cases differs

/-- **What some changes leave a session with**: what it was, where it was told of no file that
differs, and else the graph that a discovery finds. -/
theorem Session.reactAll_cases {g : Graph} (h : r.ShowsFrom st v)
    (modified : ∀ c ∈ changes, c.isDeletion = false)
    (discovered : (Search.discover v.resolver s.platform s.entry ()).1 = .ok g) :
    ((s.reactAll r changes st).1 = s ∧ ∀ c ∈ changes, ¬ s.Differs v c.path) ∨
      (s.reactAll r changes st).1 = { s with graph := g } := by
  induction changes generalizing st with
  | nil => exact .inl ⟨rfl, fun _ hc => absurd hc List.not_mem_nil⟩
  | cons c cs ih =>
    obtain ⟨hreact, h'⟩ := react_of_showsFrom h s c
    have modified' : ∀ c ∈ cs, c.isDeletion = false := fun c hc =>
      modified c (List.mem_cons_of_mem _ hc)
    rw [reactAll_cons]
    by_cases differs : s.Differs v c.path
    · right
      rw [react_of_differs (modified c List.mem_cons_self) differs discovered] at hreact
      rw [hreact]
      -- the new graph says what the snapshot says, so that no later change differs from it
      exact reactAll_of_not_differs h' modified' fun c _ =>
        not_differs_of_listed (Search.listed_of_discover discovered) c.path
    · rw [react_of_not_differs (modified c List.mem_cons_self) differs] at hreact
      rw [hreact]
      rcases ih h' modified' with ⟨stays, same⟩ | moves
      · refine .inl ⟨stays, fun c' hc' => ?_⟩
        rcases List.mem_cons.mp hc' with rfl | hc'
        · exact differs
        · exact same c' hc'
      · exact .inr moves

end ManyChanges

/-- A path that differs does so however it is spelled. -/
theorem Session.Differs.congr {v : Snapshot} {s : Session} {p q : Path} (h : s.Differs v p)
    (hpq : (p == q) = true) : s.Differs v q := by
  cases h with
  | @intro m cached current hm kind hd found differs =>
    obtain ⟨current', found', heq⟩ := v.dependencies_congr hpq found
    have samePath : ∀ m : Module, (m.path == p) = (m.path == q) := fun m => BEq.congr_right hpq
    have hm' : s.graph.moduleAt? q = some m := by
      simpa only [Graph.moduleAt?, samePath] using hm
    have hd' : s.graph.dependencies? q = some cached := by
      rwa [Graph.dependencies?, ← Assoc.get?_congr hpq]
    exact .intro hm' kind hd' found' (by rwa [BEq.congr_left heq])

/-- A graph that was discovered, and of which no file has other dependencies in a later snapshot, is
the one that a discovery finds then, but for spelling. -/
theorem Session.alike_of_not_differs {old new : Snapshot} {s : Session} {g : Graph}
    (kept : old.Keeps new)
    (seeded : (Search.discover old.resolver s.platform s.entry ()).1 = .ok s.graph)
    (discovered : (Search.discover new.resolver s.platform s.entry ()).1 = .ok g)
    (same : ∀ p, ¬ s.Differs new p) : s.graph.Alike g := by
  refine (Search.explores_of_discover seeded).alike kept (Search.explores_of_discover discovered)
    (Search.tidy_start ..) (.refl _) ?_
  intro p m deps current hmem has source found
  -- the graph is asked for the file as a session asks it, and not by its place in the list
  have listed := Search.listed_of_discover seeded
  obtain ⟨m', cached, hm, hd⟩ := listed.lookup hmem
  have kind : m'.kind = .source := by
    rw [← listed.kind_eq BEq.rfl hm has.module]
    exact of_decide_eq_true source
  obtain ⟨deps', hdeps, heq⟩ := listed.dependencies_eq hm hd kind
  have hdeps' : old.dependencies ⟨s.platform, p, s.entry⟩ = .ok deps := has.source source
  rw [hdeps'] at hdeps
  cases hdeps
  by_cases unchanged : (current == deps) = true
  · exact unchanged
  · refine absurd (.intro hm kind hd found ?_) (same p)
    rw [← BEq.congr_right heq]
    exact Bool.not_eq_true _ ▸ unchanged

/-- **Convergence.**  The graph of a session was discovered in one snapshot of the files, in a later
one a discovery succeeds, and the files that are in both keep their number and kind.  While the
later snapshot is shown, the session is told of changes in any order, as often as may be, and of
other paths too.  If it is told of every source file of its graph that has other dependencies now,
then it is left with the graph that a discovery finds, but for spelling, and with its inverse.  A
path whose dependencies cannot be looked up need not be among them. -/
theorem Session.reactAll_converges {σ : Type} {r : Resolver σ} {old new : Snapshot} {s : Session}
    {st₀ st : σ} {g : Graph} (shown : r.ShowsFrom st₀ old)
    (seeded : (Search.discover r s.platform s.entry st₀).1 = .ok s.graph)
    (shows_ : r.ShowsFrom st new)
    (discovered : (Search.discover r s.platform s.entry st).1 = .ok g) (kept : old.Keeps new)
    {changes : List Change} (modified : ∀ c ∈ changes, c.isDeletion = false)
    (told : ∀ p, s.Differs new p → ∃ c ∈ changes, (p == c.path) = true) :
    (s.reactAll r changes st).1.graph.Alike g ∧
      (s.reactAll r changes st).1.graph.inverse = g.inverse := by
  rw [Search.discover_of_showsFrom shown] at seeded
  rw [Search.discover_of_showsFrom shows_] at discovered
  have alike : (s.reactAll r changes st).1.graph.Alike g := by
    rcases reactAll_cases shows_ modified discovered with ⟨stays, same⟩ | moves
    · rw [stays]
      refine alike_of_not_differs kept seeded discovered fun p differs => ?_
      obtain ⟨c, hc, hp⟩ := told p differs
      exact same c hc (differs.congr hp)
    · rw [moves]
      exact .refl g
  exact ⟨alike, alike.inverse⟩

namespace Sample

/-- The client is told of both files, of one of them twice, and of a path that it does not know. -/
def told : List Change := [⟨.modified, part⟩, ⟨.modified, ⟨"/gone"⟩⟩, ⟨.modified, entry⟩, edit]

/-- Told of both files, the client is left with the graph of the program as it is now. -/
theorem swapped_converges :
    ∃ g, (Search.discover Tree.resolver client.session.platform client.session.entry swapped).1 =
        .ok g ∧
      g.modules.map (·.path.text) = ["/main", "/new"] ∧
      (client.session.reactAll Tree.resolver told swapped).1.graph.Alike g ∧
      (client.session.reactAll Tree.resolver told swapped).1.graph.inverse = g.inverse := by
  have facts :
      (Search.discover Tree.resolver client.session.platform client.session.entry
        tree).1.toOption.isSome = true ∧
      ((Search.discover Tree.resolver client.session.platform client.session.entry
        swapped).1.toOption.map fun g => g.modules.map (·.path.text)) = some ["/main", "/new"] ∧
      (∀ e ∈ tree.files, ∀ e' ∈ swapped.files, (e.1 == e'.1) = true →
        e'.2.id = e.2.id ∧ e'.2.kind = e.2.kind) ∧
      (∀ c ∈ told, c.isDeletion = false) ∧
      ∀ e ∈ client.session.graph.shallow, ∃ c ∈ told, (e.1 == c.path) = true := by
    decide +kernel
  obtain ⟨seeds, finds, kept, modified, covers⟩ := facts
  have seeded : (Search.discover Tree.resolver client.session.platform client.session.entry
      tree).1 = .ok client.session.graph := eq_ok_getD seeds {}
  cases found : (Search.discover Tree.resolver client.session.platform client.session.entry
      swapped).1 with
  | error fault =>
    rw [found] at finds
    cases finds
  | ok g =>
    rw [found] at finds
    refine ⟨g, rfl, Option.some.inj finds, ?_⟩
    refine Session.reactAll_converges tree.showsFrom seeded swapped.showsFrom found
      (Tree.keeps kept) modified fun p differs => ?_
    obtain ⟨-, -, listed, -, -⟩ := differs
    obtain ⟨q, hmem, hqp⟩ := Assoc.mem_of_get? listed
    obtain ⟨c, hc, hqc⟩ := covers _ hmem
    exact ⟨c, hc, BEq.trans (BEq.symm hqp) hqc⟩

end Sample

end HotReload
