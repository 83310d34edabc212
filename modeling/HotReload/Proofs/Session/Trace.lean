import HotReload.Proofs.Graph.Heard

/-!
# What the answers come to

What becomes of a change depends on the answers that are heard on the way and on nothing else.
`Progress.Known` reads off the answers how the reaction stands; `Connection.Traced` reads off them
what has been done with a change, up to the build that comes last.

* `Session.Diverges`: the changed file has other dependencies than the graph says.
* `Progress.Known.next`: one more answer.
* `Connection.Yields`: what a reaction yields, with what is built for it.
* `Connection.Handling.traced`: a change that is taken up, with all that is heard.
-/

namespace HotReload

/-! ### Determined answers -/

theorem Query.Leads.unique {α : Type} {q : Query α} {a : Answer} {x y : α} (h : q.Leads a x)
    (h' : q.Leads a y) : x = y := by
  cases h with
  | module => cases h' with | module => rfl
  | dependencies => cases h' with | dependencies => rfl

/-- A discovery by its first answer. -/
theorem Search.Answered.head {s : Search} {heard : List Answer}
    {result : Except ResolveFault Graph} (h : s.Answered heard result) :
    ∃ a led rest, heard = a :: rest ∧ s.next.Leads a led ∧
      match led with
      | .error e => rest = [] ∧ result = .error e
      | .ok (.inr g) => rest = [] ∧ result = .ok g
      | .ok (.inl s') => s'.Answered rest result := by
  cases h with
  | fault leads => exact ⟨_, _, [], rfl, leads, rfl, rfl⟩
  | found leads => exact ⟨_, _, [], rfl, leads, rfl, rfl⟩
  | more leads rest => exact ⟨_, _, _, rfl, leads, rest⟩

/-- What a discovery hears decides where it ends, and how. -/
theorem Search.Answered.unique {s : Search} {heard heard' more : List Answer}
    {result result' : Except ResolveFault Graph} (h : s.Answered heard result)
    (h' : s.Answered heard' result') (same : heard ++ more = heard') :
    heard = heard' ∧ result = result' := by
  induction h generalizing heard' with
  | fault leads =>
    obtain ⟨a, led, rest, rfl, leads', ends⟩ := h'.head
    cases (List.cons.inj same).1
    cases leads.unique leads'
    obtain ⟨rfl, rfl⟩ := ends
    exact ⟨rfl, rfl⟩
  | found leads =>
    obtain ⟨a, led, rest, rfl, leads', ends⟩ := h'.head
    cases (List.cons.inj same).1
    cases leads.unique leads'
    obtain ⟨rfl, rfl⟩ := ends
    exact ⟨rfl, rfl⟩
  | more leads _ ih =>
    obtain ⟨a, led, rest, rfl, leads', goes⟩ := h'.head
    obtain ⟨first, others⟩ := List.cons.inj same
    cases first
    cases leads.unique leads'
    obtain ⟨rfl, rfl⟩ := ih goes others
    exact ⟨rfl, rfl⟩

/-! ### Reactions -/

/-- The question for the dependencies of a changed file. -/
def Session.lookup (s : Session) (change : Change) : Lookup := ⟨s.platform, change.path, s.entry⟩

/-- A changed source file has other dependencies than the graph says. -/
structure Session.Diverges (s : Session) (change : Change) (current : List Path) : Prop where
  asked : ∃ m, Progress.start s change = .probing (.dependencies m)
  differs : (current == (s.graph.dependencies? change.path).getD []) = false

namespace Progress

/-- How the reaction to a change stands after some answers. -/
inductive Known (s : Session) (change : Change) : List Answer → Progress → Prop where
  /-- Nothing was asked yet, and perhaps there is nothing to ask. -/
  | first : Known s change [] (start s change)
  /-- The changed file cannot be looked up. -/
  | unlisted {m : Module} (asked : start s change = .probing (.dependencies m)) (e : ResolveFault) :
      Known s change [.dependencies (s.lookup change) (.error e)]
        (.settled (.error (.ofResolve e)))
  /-- The changed file has the dependencies that the graph says. -/
  | same {m : Module} {current : List Path}
      (asked : start s change = .probing (.dependencies m))
      (same : (current == (s.graph.dependencies? change.path).getD []) = true) :
      Known s change [.dependencies (s.lookup change) (.ok current)]
        (.settled (.ok (s.graph, .rebuild [m])))
  | searching {current : List Path} {heard : List Answer} {search : Search}
      (diverges : s.Diverges change current)
      (reaches : (Search.start s.platform s.entry).Reaches heard search) :
      Known s change (.dependencies (s.lookup change) (.ok current) :: heard)
        (.probing (.graph search))
  /-- The graph cannot be discovered. -/
  | missed {current : List Path} {heard : List Answer} {e : ResolveFault}
      (diverges : s.Diverges change current)
      (answered : (Search.start s.platform s.entry).Answered heard (.error e)) :
      Known s change (.dependencies (s.lookup change) (.ok current) :: heard)
        (.settled (.error (searchFault s e)))
  | found {current : List Path} {heard : List Answer} {g : Graph}
      (diverges : s.Diverges change current)
      (answered : (Search.start s.platform s.entry).Answered heard (.ok g)) :
      Known s change (.dependencies (s.lookup change) (.ok current) :: heard)
        (.settled (.ok (g, regraphed s change g)))

variable {s : Session} {change : Change} {heard : List Answer}

/-- The first look asks for nothing, or for the dependencies of the changed file. -/
theorem start_ne_graph (search : Search) : start s change ≠ .probing (.graph search) := by
  unfold start
  repeat' split
  all_goals simp

/-- The dependencies of the changed file are asked for first. -/
theorem Known.asked {m : Module} (h : Known s change heard (.probing (.dependencies m))) :
    heard = [] ∧ start s change = .probing (.dependencies m) := by
  generalize now : Progress.probing (.dependencies m) = progress at h
  cases h with
  | first => exact ⟨rfl, rfl⟩
  | unlisted | same | searching | missed | found => cases now

/-- A discovery goes on after the changed file was looked up. -/
theorem Known.reaches {search : Search} (h : Known s change heard (.probing (.graph search))) :
    ∃ current rest, heard = .dependencies (s.lookup change) (.ok current) :: rest ∧
      s.Diverges change current ∧ (Search.start s.platform s.entry).Reaches rest search := by
  generalize now : Progress.probing (.graph search) = progress at h
  cases h with
  | first => exact absurd now.symm (start_ne_graph search)
  | searching diverges reaches =>
    cases now
    exact ⟨_, _, rfl, diverges, reaches⟩
  | unlisted | same | missed | found => cases now

/-- **One more answer.** -/
theorem Known.next {σ : Type} (r : Resolver σ) (st : σ) {probe : Probe}
    (h : Known s change heard (.probing probe)) :
    Known s change (heard ++ [(probe.next s change).reply r st])
      ((probe.next s change).answer r st).1 := by
  cases probe with
  | dependencies m =>
    obtain ⟨rfl, asked⟩ := h.asked
    simp only [Probe.next, Query.reply, Query.answer, List.nil_append]
    cases (r.dependencies ⟨s.platform, change.path, s.entry⟩ st).1 with
    | error e => exact .unlisted asked e
    | ok current =>
      cases same : current == (s.graph.dependencies? change.path).getD [] with
      | true =>
        simp only [same, if_true]
        exact .same asked same
      | false =>
        simp only [same, Bool.false_eq_true, if_false]
        exact .searching ⟨⟨m, asked⟩, same⟩ .start
  | graph search =>
    obtain ⟨current, rest, rfl, diverges, reaches⟩ := h.reaches
    have leads := search.next.leads_reply r st
    have reply : ((Probe.graph search).next s change).reply r st = search.next.reply r st := by
      rw [Probe.next]
      cases search.next <;> rfl
    rw [reply, Probe.next, Query.answer_map, List.cons_append]
    -- the discovery ends in a fault, goes on, or has found the graph
    generalize (search.next.answer r st).1 = next at leads ⊢
    rcases next with e | search' | g
    · exact .missed diverges (reaches.answered (.fault leads))
    · exact .searching diverges (reaches.more leads)
    · exact .found diverges (reaches.answered (.found leads))

/-- The graph that a reaction brings is the old one, or one that was discovered. -/
theorem Known.graph {g : Graph} {reaction : Reaction}
    (h : Known s change heard (.settled (.ok (g, reaction)))) :
    g = s.graph ∨ ∃ answer rest, heard = answer :: rest ∧
      (Search.start s.platform s.entry).Answered rest (.ok g) := by
  generalize now : Progress.settled (.ok (g, reaction)) = progress at h
  cases h with
  | first =>
    refine .inl ?_
    unfold start at now
    repeat' split at now
    all_goals simp_all
  | same =>
    cases now
    exact .inl rfl
  | found diverges answered =>
    cases now
    exact .inr ⟨_, _, rfl, answered⟩
  | unlisted | searching | missed => cases now

end Progress

namespace Connection

/-! ### Changes -/

/-- What a reaction yields where the session has the graph that it brought: the result of the cycle,
with what is heard of a build. -/
inductive Yields (s : Session) (endpoint : Endpoint) :
    Reaction → List Answer → Except UpdateFault (Option Payload) → Prop where
  | irrelevant : Yields s endpoint .irrelevant [] (.ok none)
  | deleted (m : Module) :
      Yields s endpoint (.deleted m) [] (.ok (some (Payload.deletion m.id s.graph.inverse)))
  /-- None of the modules to be rebuilt belongs to the program. -/
  | nothing {modules : List Module} (idle : s.jobFor? endpoint modules = none) :
      Yields s endpoint (.rebuild modules) [] (.ok none)
  | built {modules : List Module} {job : BuildJob} (order : s.jobFor? endpoint modules = some job)
      (built : List BuiltModule) :
      Yields s endpoint (.rebuild modules) [.build job (.ok built)] (.ok (s.updateFor built))
  | unbuilt {modules : List Module} {job : BuildJob} (order : s.jobFor? endpoint modules = some job)
      (e : ResolveFault) :
      Yields s endpoint (.rebuild modules) [.build job (.error e)] (.error (.ofResolve e))

/-- What has been done with a change, by what was heard. -/
inductive Traced (c : Connection) (change : Change) : List Answer → Moved → Prop where
  | refused : Traced c change [] c.discard
  | skipped (h : c.session.isRelevant change = false) : Traced c change [] (c, some .skipped)
  | probing {c₁ : Connection} {probe : Probe} {heard : List Answer} (o : Opens c change)
      (b : Began c c₁) (session : c₁.session = c.session)
      (cycle : c₁.cycle = some (.probing change probe))
      (known : Progress.Known c.session change heard (.probing probe)) :
      Traced c change heard (c₁, none)
  /-- A build is about to be ordered, or it is ordered. -/
  | building {c₁ : Connection} {g : Graph} {modules : List Module} {heard : List Answer}
      (o : Opens c change) (b : Began c c₁)
      (session : c₁.session = { c.session with graph := g })
      (cycle : ∃ job, c₁.session.jobFor? c₁.endpoint modules = some job ∧
        (c₁.cycle = some (.ordering job) ∨ c₁.cycle = some (.building job)))
      (known : Progress.Known c.session change heard (.settled (.ok (g, .rebuild modules)))) :
      Traced c change heard (c₁, none)
  /-- The reaction is not found. -/
  | failed {c₁ : Connection} {e : UpdateFault} {heard : List Answer} {moved : Moved}
      (o : Opens c change) (b : Began c c₁) (session : c₁.session = c.session)
      (known : Progress.Known c.session change heard (.settled (.error e)))
      (ends : Ends c₁ (.error e) moved) : Traced c change heard moved
  /-- The reaction is found, and perhaps a build was delivered. -/
  | ended {c₁ : Connection} {g : Graph} {reaction : Reaction}
      {result : Except UpdateFault (Option Payload)} {heard builds : List Answer} {moved : Moved}
      (o : Opens c change) (b : Began c c₁)
      (session : c₁.session = { c.session with graph := g })
      (known : Progress.Known c.session change heard (.settled (.ok (g, reaction))))
      (yields : Yields c₁.session c₁.endpoint reaction builds result)
      (ends : Ends c₁ result moved) : Traced c change (heard ++ builds) moved

/-- No fault of a resolver by itself means that the entry file is lost. -/
theorem losesEntry_ofResolve (e : ResolveFault) : losesEntry (.error (.ofResolve e)) = false := by
  cases e <;> rfl

/-- A reaction that is found does not mean that the entry file is lost. -/
theorem Yields.kept {s : Session} {endpoint : Endpoint} {reaction : Reaction}
    {builds : List Answer} {result : Except UpdateFault (Option Payload)}
    (h : Yields s endpoint reaction builds result) : losesEntry result = false := by
  cases h with
  | irrelevant | deleted | nothing | built => rfl
  | unbuilt _ e => exact losesEntry_ofResolve e

section Tracing

variable {c c₁ : Connection} {change : Change} {heard : List Answer}

theorem Traced.conclude {g : Graph} {reaction : Reaction} {builds : List Answer}
    {result : Except UpdateFault (Option Payload)} (o : Opens c change) (b : Began c c₁)
    (session : c₁.session = { c.session with graph := g })
    (known : Progress.Known c.session change heard (.settled (.ok (g, reaction))))
    (yields : Yields c₁.session c₁.endpoint reaction builds result) :
    Traced c change (heard ++ builds) (c₁.conclude result) :=
  .ended o b session known yields (conclude_ends c₁ result)

/-- A cycle goes on with a reaction. -/
theorem traced_act {g : Graph} {reaction : Reaction} (o : Opens c change) (b : Began c c₁)
    (session : c₁.session = { c.session with graph := g })
    (known : Progress.Known c.session change heard (.settled (.ok (g, reaction)))) :
    Traced c change heard (c₁.act reaction) := by
  have concludes : ∀ {result}, Yields c₁.session c₁.endpoint reaction [] result →
      Traced c change heard (c₁.conclude result) := fun yields => by
    simpa only [List.append_nil] using Traced.conclude o b session known yields
  cases reaction with
  | irrelevant => exact concludes .irrelevant
  | deleted m => exact concludes (.deleted m)
  | rebuild modules =>
    simp only [act]
    split
    · next idle => exact concludes (.nothing idle)
    · next job order =>
      exact .building o ⟨b.phase, b.sent, b.endpoint⟩ session ⟨job, order, .inl rfl⟩ known

/-- A cycle goes on with what is known of the reaction. -/
theorem traced_advance {progress : Progress} (o : Opens c change) (b : Began c c₁)
    (session : c₁.session = c.session)
    (known : Progress.Known c.session change heard progress) :
    Traced c change heard (c₁.advance change progress) := by
  match progress with
  | .probing probe => exact .probing o ⟨b.phase, b.sent, b.endpoint⟩ session rfl known
  | .settled (.error e) => exact .failed o b session known (conclude_ends c₁ (.error e))
  | .settled (.ok (g, reaction)) =>
    have b' : Began c { c₁ with session := { c₁.session with graph := g } } :=
      ⟨b.phase, b.sent, b.endpoint⟩
    exact traced_act o b' (by rw [session]) known

/-- A change is taken up. -/
theorem traced_handle (c : Connection) (change : Change) : Traced c change [] (c.handle change) := by
  unfold handle
  split
  · exact .refused
  · next open_ =>
    simp only [not_or, Bool.not_eq_true, Bool.not_eq_false'] at open_
    obtain ⟨phase, present, active⟩ := open_
    cases relevant : c.session.isRelevant change with
    | false => exact .skipped relevant
    | true =>
      rcases send_cases { c with phase := .awaiting } .updateStart
        (fun c => c.advance change (Progress.start c.session change)) with h | ⟨sink, hs, h⟩
      · exact h ▸ .refused
      · refine h ▸ ?_
        have b : Began c { c with phase := .awaiting, sink } :=
          ⟨rfl, Sink.accepted_of_accept? hs, rfl⟩
        exact traced_advance ⟨phase, present, active, relevant⟩ b rfl .first

/-- One step of a cycle. -/
theorem Traced.step {σ : Type} {r : Resolver σ} {moved : Moved} {st st' : σ}
    (h : Traced c change heard (c₁, none)) (hs : c₁.step? r st = some (moved, st')) :
    Traced c change (heard ++ c₁.answers r st) moved := by
  cases h with
  | failed _ _ _ _ ends => cases ends
  | ended _ _ _ _ _ ends => cases ends
  | @probing _ probe _ o b session cycle known =>
    simp only [step?, cycle, Option.some.injEq, Prod.mk.injEq] at hs
    obtain ⟨rfl, -⟩ := hs
    simp only [answers, cycle, session]
    exact traced_advance o b session (known.next r st)
  | building o b session cycle known =>
    obtain ⟨job, order, ordering | building⟩ := cycle
    · simp only [step?, ordering, Option.some.injEq, Prod.mk.injEq] at hs
      obtain ⟨rfl, -⟩ := hs
      simp only [answers, ordering, List.append_nil]
      exact .building o ⟨b.phase, b.sent, b.endpoint⟩ session ⟨job, order, .inr rfl⟩ known
    · simp only [step?, building] at hs
      split at hs
      · cases hs
      · next answer _ delivered =>
        simp only [Option.some.injEq, Prod.mk.injEq] at hs
        obtain ⟨rfl, -⟩ := hs
        simp only [answers, building, delivered, Option.map_some, Option.toList_some]
        cases answer with
        | error e => exact .conclude o b session known (.unbuilt order e)
        | ok built => exact .conclude o b session known (.built order built)

/-- Nothing that happens while a cycle waits changes what has been done. -/
theorem Traced.stir {σ : Type} {c₂ : Connection} {st st' : σ}
    (h : Traced c change heard (c₁, none)) (hs : Stirs c₁ st c₂ st') :
    Traced c change heard (c₂, none) := by
  obtain ⟨isAlive, isOpen, limit, -, rfl⟩ := hs.frame
  cases h with
  | failed _ _ _ _ ends => cases ends
  | ended _ _ _ _ _ ends => cases ends
  | probing o b session cycle known =>
    exact .probing o ⟨b.phase, b.sent, b.endpoint⟩ session cycle known
  | building o b session cycle known =>
    exact .building o ⟨b.phase, b.sent, b.endpoint⟩ session cycle known

/-- **What a handling comes to, by what it hears.** -/
theorem Handling.traced {σ : Type} {r : Resolver σ} {moved : Moved} {st st' : σ}
    (h : Handling r c change st heard moved st') : Traced c change heard moved := by
  induction h with
  | start => exact traced_handle c change
  | step _ hs ih => exact ih.step hs
  | stir _ hs ih => exact ih.stir hs

/-- The end of a cycle leaves its session as it was, unless it ends it. -/
theorem Ends.session {result : Except UpdateFault (Option Payload)} {moved : Moved}
    (h : Ends c result moved) : ∃ active, moved.1.session = { c.session with active } := by
  cases h with
  | sent => exact ⟨_, rfl⟩
  | left active => exact ⟨active, rfl⟩

end Tracing

end Connection

end HotReload
