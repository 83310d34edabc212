import HotReload.Proofs.Assoc
import HotReload.Watch.Debounce
import Mathlib.Data.List.Pairwise

/-!
# Changes that have settled

A history of a debouncer is a list of changes that came in and of drains with what they returned.
`standing?` reads off a history what is to be told of a path: the last change of it that came in
since it was last returned.  A debouncer holds back exactly what stands (`Keeps`), and so a drain
returns what stands and whose window is over.  That every change is told once in the end is then a
matter of histories alone: a change that came in is outstanding until a drain covers it.

* `Run`: every history, with the clock showing anything.
* `Keeps.returned`: what a drain returns.
* `Keeps.next`: the next deadline.
* `Covers`: a change that was returned, and one that came in and that it stands for.
* `Run.trailing`: what holds of a debouncer after a history.
-/

namespace HotReload

namespace Watch.Debouncer

/-! ### Histories -/

/-- What happens to a debouncer. -/
inductive Event where
  /-- A change comes in. -/
  | recorded (change : Change) (now : Nat)
  /-- What has settled is taken out. -/
  | drained (now : Nat) (returned : List Change)

/-- What stands for a path after an event: a change that comes in stands until the next one does, or
until the path is returned. -/
def Event.leaves (p : Path) (standing : Option (ChangeKind × Nat)) :
    Event → Option (ChangeKind × Nat)
  | .recorded change now => if change.path == p then some (change.kind, now) else standing
  | .drained _ returned => if returned.any (·.path == p) then none else standing

/-- The last change of a path that has come in since the path was last returned, and when it came
in. -/
def standing? (log : List Event) (p : Path) : Option (ChangeKind × Nat) :=
  log.foldl (Event.leaves p) none

/-- The states of a debouncer, and what has happened to it.  The clock may show anything. -/
inductive Run (window : Nat) : List Event → Debouncer → Prop where
  | start : Run window [] { window }
  | record {log : List Event} {d : Debouncer} (t : Run window log d) (change : Change)
      (now : Nat) : Run window (log ++ [.recorded change now]) (d.record change now)
  | drain {log : List Event} {d : Debouncer} (t : Run window log d) (now : Nat) :
      Run window (log ++ [.drained now (d.drain now).1]) (d.drain now).2

@[simp] theorem standing?_concat (log : List Event) (e : Event) (p : Path) :
    standing? (log ++ [e]) p = e.leaves p (standing? log p) := by
  simp [standing?]

/-! ### Drains -/

variable {window : Nat} {log : List Event} {d : Debouncer}

/-- The entries whose windows are over, the one that was over first in front. -/
def ready (d : Debouncer) (now : Nat) : List (Path × Held) :=
  (d.pending.filter fun e => e.2.deadline ≤ now).mergeSort fun a b => a.2.deadline ≤ b.2.deadline

theorem drain_eq (d : Debouncer) (now : Nat) :
    d.drain now = ((d.ready now).map fun e => ⟨e.2.kind, e.1⟩,
      { d with pending := d.pending.filter fun e => now < e.2.deadline }) := by
  have rest : (not ∘ fun e : Path × Held => decide (e.2.deadline ≤ now)) =
      fun e => decide (now < e.2.deadline) := by
    funext e
    rw [Function.comp_apply, ← decide_not]
    exact decide_eq_decide.mpr Nat.not_le
  rw [drain, List.partition_eq_filter_filter, rest, ready]

theorem mem_ready {now : Nat} {e : Path × Held} :
    e ∈ d.ready now ↔ e ∈ d.pending ∧ e.2.deadline ≤ now := by
  rw [ready, (List.mergeSort_perm _ _).mem_iff, List.mem_filter, decide_eq_true_iff]

theorem ready_ordered (d : Debouncer) (now : Nat) :
    (d.ready now).Pairwise fun e e' => e.2.deadline ≤ e'.2.deadline := by
  let earlier (e e' : Path × Held) : Bool := e.2.deadline ≤ e'.2.deadline
  have trans : ∀ a b c, earlier a b = true → earlier b c = true → earlier a c = true := by
    intro a b c ab bc
    rw [decide_eq_true_iff] at ab bc ⊢
    exact Nat.le_trans ab bc
  have total : ∀ a b, (earlier a b || earlier b a) = true := by
    intro a b
    rw [Bool.or_eq_true, decide_eq_true_iff, decide_eq_true_iff]
    exact Nat.le_total a.2.deadline b.2.deadline
  exact (List.pairwise_mergeSort trans total _).imp fun h => of_decide_eq_true h

theorem ready_apart (apart : Assoc.Apart d.pending) (now : Nat) : Assoc.Apart (d.ready now) := by
  have filtered : Assoc.Apart (d.pending.filter fun e => e.2.deadline ≤ now) := apart.filter _
  refine ((List.mergeSort_perm _ _).pairwise_iff fun {e e'} other => ?_).mpr filtered
  rw [BEq.comm, other]

/-- What is under a path in the entries that a drain leaves. -/
theorem get?_left (apart : Assoc.Apart d.pending) {now : Nat} {p : Path} {held : Held} :
    Assoc.get? (d.drain now).2.pending p = some held ↔
      Assoc.get? d.pending p = some held ∧ now < held.deadline := by
  have filtered : Assoc.Apart (d.drain now).2.pending := by
    rw [drain_eq]
    exact apart.filter _
  rw [filtered.get?_eq_some_iff, apart.get?_eq_some_iff, drain_eq]
  simp only [List.mem_filter, decide_eq_true_iff]
  constructor
  · rintro ⟨e, ⟨mem, late⟩, same, rfl⟩
    exact ⟨⟨e, mem, same, rfl⟩, late⟩
  · rintro ⟨⟨e, mem, same, rfl⟩, late⟩
    exact ⟨e, ⟨mem, late⟩, same, rfl⟩

/-- What a drain returns of a path. -/
theorem returned_iff (apart : Assoc.Apart d.pending) {now : Nat} {p : Path} {kind : ChangeKind} :
    (∃ change ∈ (d.drain now).1, (change.path == p) = true ∧ change.kind = kind) ↔
      ∃ deadline, Assoc.get? d.pending p = some ⟨kind, deadline⟩ ∧ deadline ≤ now := by
  simp only [drain_eq, List.mem_map, mem_ready, apart.get?_eq_some_iff]
  constructor
  · rintro ⟨_, ⟨e, ⟨mem, over_⟩, rfl⟩, same, rfl⟩
    exact ⟨e.2.deadline, ⟨e, mem, same, rfl⟩, over_⟩
  · rintro ⟨deadline, ⟨⟨q, held⟩, mem, same, rfl⟩, over_⟩
    exact ⟨_, ⟨_, ⟨mem, over_⟩, rfl⟩, same, rfl⟩

/-! ### What is held back -/

/-- What a debouncer holds back is what stands for each path, until its window is over. -/
structure Keeps (window : Nat) (log : List Event) (d : Debouncer) : Prop where
  same : d.window = window
  apart : Assoc.Apart d.pending
  held : ∀ p, Assoc.get? d.pending p = (standing? log p).map fun s => ⟨s.1, s.2 + window⟩

namespace Keeps

theorem start : Keeps window [] { window } := ⟨rfl, .nil, fun _ => rfl⟩

theorem held_iff (h : Keeps window log d) {p : Path} {kind : ChangeKind} {deadline : Nat} :
    Assoc.get? d.pending p = some ⟨kind, deadline⟩ ↔
      ∃ came, standing? log p = some (kind, came) ∧ came + window = deadline := by
  rw [h.held, Option.map_eq_some_iff]
  constructor
  · rintro ⟨⟨kind, came⟩, standing, same⟩
    cases same
    exact ⟨came, standing, rfl⟩
  · rintro ⟨came, standing, rfl⟩
    exact ⟨(kind, came), standing, rfl⟩

/-- **What a drain returns**: the paths for which something stands whose window is over. -/
theorem returned (h : Keeps window log d) {now : Nat} {p : Path} {kind : ChangeKind} :
    (∃ change ∈ (d.drain now).1, (change.path == p) = true ∧ change.kind = kind) ↔
      ∃ came, standing? log p = some (kind, came) ∧ came + window ≤ now := by
  simp only [returned_iff h.apart, h.held_iff]
  constructor
  · rintro ⟨deadline, ⟨came, standing, rfl⟩, over_⟩
    exact ⟨came, standing, over_⟩
  · rintro ⟨came, standing, over_⟩
    exact ⟨came + window, ⟨came, standing, rfl⟩, over_⟩

theorem any_returned_iff (h : Keeps window log d) {now : Nat} {p : Path} :
    (d.drain now).1.any (·.path == p) = true ↔
      ∃ kind came, standing? log p = some (kind, came) ∧ came + window ≤ now := by
  simp only [List.any_eq_true, ← h.returned]
  constructor
  · rintro ⟨change, mem, same⟩
    exact ⟨change.kind, change, mem, same, rfl⟩
  · rintro ⟨kind, change, mem, same, -⟩
    exact ⟨change, mem, same⟩

theorem record (h : Keeps window log d) (change : Change) (now : Nat) :
    Keeps window (log ++ [.recorded change now]) (d.record change now) where
  same := h.same
  apart := h.apart.insert change.path _
  held p := by
    rw [Debouncer.record, Assoc.get?_insert, standing?_concat, Event.leaves, h.held, h.same]
    split <;> rfl

theorem drain (h : Keeps window log d) (now : Nat) :
    Keeps window (log ++ [.drained now (d.drain now).1]) (d.drain now).2 where
  same := by
    rw [drain_eq]
    exact h.same
  apart := by
    rw [drain_eq]
    exact h.apart.filter _
  held p := by
    rw [standing?_concat, Event.leaves]
    refine Option.ext fun ⟨kind, deadline⟩ => ?_
    rw [get?_left h.apart, h.held_iff]
    split
    · next back =>
      -- what stands is over, and so it is not left
      obtain ⟨kind', came', standing', over_⟩ := h.any_returned_iff.mp back
      simp only [Option.map_none, reduceCtorEq, iff_false]
      rintro ⟨⟨came, standing, rfl⟩, late⟩
      rw [standing'] at standing
      cases standing
      exact absurd over_ (Nat.not_le.mpr late)
    · next kept =>
      rw [Option.map_eq_some_iff]
      constructor
      · rintro ⟨⟨came, standing, rfl⟩, -⟩
        exact ⟨(kind, came), standing, rfl⟩
      · rintro ⟨⟨kind', came⟩, standing, same⟩
        cases same
        refine ⟨⟨came, standing, rfl⟩, Nat.lt_of_not_le fun over_ => kept ?_⟩
        exact h.any_returned_iff.mpr ⟨_, came, standing, over_⟩

/-- No path is returned twice by one drain. -/
theorem once (h : Keeps window log d) (now : Nat) :
    (d.drain now).1.Pairwise fun c c' => (c.path == c'.path) = false := by
  rw [drain_eq, List.pairwise_map]
  exact ready_apart h.apart now

/-- What a drain returns has come in one after the other. -/
theorem ordered (h : Keeps window log d) (now : Nat) :
    (d.drain now).1.Pairwise fun c c' =>
      ∀ kind came kind' came', standing? log c.path = some (kind, came) →
        standing? log c'.path = some (kind', came') → came ≤ came' := by
  rw [drain_eq, List.pairwise_map]
  refine (ready_ordered d now).imp_of_mem fun {e e'} mem mem' le => ?_
  intro kind came kind' came' standing standing'
  have under := h.apart.get?_eq_some_iff.mpr ⟨e, (mem_ready.mp mem).1, BEq.rfl, rfl⟩
  have under' := h.apart.get?_eq_some_iff.mpr ⟨e', (mem_ready.mp mem').1, BEq.rfl, rfl⟩
  rw [h.held, standing, Option.map_some, Option.some.injEq] at under
  rw [h.held, standing', Option.map_some, Option.some.injEq] at under'
  rw [← under, ← under'] at le
  exact Nat.le_of_add_le_add_right le

end Keeps

/-- When the next window is over, where something stands. -/
inductive IsNext (window : Nat) (log : List Event) : Option Nat → Prop where
  | idle (none_ : ∀ p, standing? log p = none) : IsNext window log none
  | least {p : Path} {kind : ChangeKind} {came : Nat}
      (standing : standing? log p = some (kind, came))
      (first : ∀ p' kind' came', standing? log p' = some (kind', came') → came ≤ came') :
      IsNext window log (some (came + window))

theorem Keeps.next (h : Keeps window log d) : IsNext window log d.nextDeadline? := by
  cases least : d.nextDeadline? with
  | none =>
    rw [nextDeadline?, List.min?_eq_none_iff, List.map_eq_nil_iff] at least
    refine .idle fun p => ?_
    have empty := h.held p
    rw [least] at empty
    exact Option.map_eq_none_iff.mp empty.symm
  | some deadline =>
    rw [nextDeadline?, List.min?_eq_some_iff] at least
    obtain ⟨mem, le⟩ := least
    obtain ⟨e, mem₁, rfl⟩ := List.mem_map.mp mem
    have under := h.apart.get?_eq_some_iff.mpr ⟨e, mem₁, BEq.rfl, rfl⟩
    obtain ⟨came, standing, same⟩ := h.held_iff.mp under
    rw [← same]
    refine .least standing fun p' kind' came' standing' => ?_
    have under' := h.held_iff.mpr ⟨came', standing', rfl⟩
    obtain ⟨e', mem', -, held⟩ := h.apart.get?_eq_some_iff.mp under'
    have later := le _ (List.mem_map_of_mem mem')
    rw [held, ← same] at later
    exact Nat.le_of_add_le_add_right later

/-- After a drain no window is over. -/
theorem lt_of_nextDeadline? {now deadline : Nat}
    (h : (d.drain now).2.nextDeadline? = some deadline) : now < deadline := by
  rw [nextDeadline?, List.min?_eq_some_iff] at h
  obtain ⟨e, mem, rfl⟩ := List.mem_map.mp h.1
  rw [drain_eq, List.mem_filter] at mem
  exact of_decide_eq_true mem.2

/-- An event of a history with one more is the last one, or one of those before it. -/
theorem getElem?_concat_cases {e x : Event} {j : Nat} (here : (log ++ [e])[j]? = some x) :
    (log[j]? = some x ∧ (log ++ [e]).take j = log.take j) ∨
      (x = e ∧ (log ++ [e]).take j = log) := by
  rcases Nat.lt_or_ge j log.length with inside | outside
  · rw [List.getElem?_append_left inside] at here
    exact .inl ⟨here, List.take_append_of_le_length (Nat.le_of_lt inside)⟩
  · have bound : j < log.length + 1 := by
      simpa using (List.getElem?_eq_some_iff.mp here).1
    obtain rfl : j = log.length := Nat.le_antisymm (Nat.le_of_lt_succ bound) outside
    rw [List.getElem?_concat_length] at here
    exact .inr ⟨(Option.some.inj here).symm, List.take_left⟩

namespace Run

theorem keeps (run : Run window log d) : Keeps window log d := by
  induction run with
  | start => exact .start
  | record _ change now ih => exact ih.record change now
  | drain _ now ih => exact ih.drain now

/-- What a drain in the history returned is what a debouncer returned that had been through all that
was before. -/
theorem drained (run : Run window log d) {j now : Nat} {returned : List Change}
    (here : log[j]? = some (.drained now returned)) :
    ∃ d', Run window (log.take j) d' ∧ returned = (d'.drain now).1 := by
  induction run with
  | start => cases here
  | record t change now' ih =>
    rcases getElem?_concat_cases here with ⟨here, same⟩ | ⟨last, -⟩
    · rw [same]
      exact ih here
    · cases last
  | @drain log d t now' ih =>
    rcases getElem?_concat_cases here with ⟨here, same⟩ | ⟨last, same⟩
    · rw [same]
      exact ih here
    · cases last
      rw [same]
      exact ⟨d, t, rfl⟩

end Run

/-! ### Covered records -/

/-- A change came in, and none of the drains after it, up to a later place, returned its path. -/
structure Outstanding (log : List Event) (i : Nat) (change : Change) (n : Nat) : Prop where
  recorded : ∃ now, log[i]? = some (.recorded change now)
  later : i < n
  kept : ∀ k now changes, i < k → k < n → log[k]? = some (.drained now changes) →
    changes.any (·.path == change.path) = false

/-- A change that a drain returned covers one that came in before: it is of the same path, and no
drain between them returned the path. -/
structure Covers (log : List Event) (i : Nat) (change : Change) (j : Nat) (returned : Change) :
    Prop where
  outstanding : Outstanding log i change j
  drained : ∃ now changes, log[j]? = some (.drained now changes) ∧ returned ∈ changes
  same : (returned.path == change.path) = true

theorem Outstanding.succ {i n : Nat} {change : Change} (h : Outstanding log i change n)
    (aside : ∀ now changes, log[n]? = some (.drained now changes) →
      changes.any (·.path == change.path) = false) : Outstanding log i change (n + 1) where
  recorded := h.recorded
  later := Nat.lt_succ_of_lt h.later
  kept k now changes after before at_k := by
    rcases Nat.lt_succ_iff_lt_or_eq.mp before with before | rfl
    · exact h.kept k now changes after before at_k
    · exact aside now changes at_k

theorem standing?_take_succ (log : List Event) (n : Nat) (p : Path) :
    standing? (log.take (n + 1)) p =
      log[n]?.elim (standing? (log.take n) p) (Event.leaves p (standing? (log.take n) p)) := by
  rw [List.take_add_one]
  cases log[n]? with
  | none => rw [Option.toList_none, List.append_nil, Option.elim_none]
  | some e => rw [Option.toList_some, standing?_concat, Option.elim_some]

/-- What stands came in, and is outstanding. -/
theorem exists_outstanding {n : Nat} {p : Path} {kind : ChangeKind} {came : Nat}
    (standing : standing? (log.take n) p = some (kind, came)) :
    ∃ i change, log[i]? = some (.recorded change came) ∧ Outstanding log i change n ∧
      (change.path == p) = true ∧ change.kind = kind := by
  induction n with
  | zero => cases standing
  | succ n ih =>
    rw [standing?_take_succ] at standing
    cases at_n : log[n]? with
    | none =>
      rw [at_n] at standing
      obtain ⟨i, change, here, open_, same, kept⟩ := ih standing
      exact ⟨i, change, here, open_.succ (by simp [at_n]), same, kept⟩
    | some e =>
      rw [at_n, Option.elim_some] at standing
      cases e with
      | recorded change now =>
        rw [Event.leaves] at standing
        split at standing
        · next same =>
          cases standing
          refine ⟨n, change, at_n, ⟨⟨_, at_n⟩, Nat.lt_succ_self n, ?_⟩, same, rfl⟩
          intro k now changes after before
          exact absurd after (Nat.not_lt.mpr (Nat.le_of_lt_succ before))
        · obtain ⟨i, change', here, open_, same, kept⟩ := ih standing
          exact ⟨i, change', here, open_.succ (by simp [at_n]), same, kept⟩
      | drained now changes =>
        rw [Event.leaves] at standing
        split at standing
        · cases standing
        · next kept =>
          obtain ⟨i, change, here, open_, same, kind⟩ := ih standing
          refine ⟨i, change, here, open_.succ fun now' changes' at_n' => ?_, same, kind⟩
          rw [at_n] at at_n'
          cases at_n'
          simpa [BEq.congr_right same] using kept

/-- Where a change is outstanding, something stands for its path: a change that came in then or
later. -/
theorem Outstanding.standing {i n : Nat} {change : Change} (h : Outstanding log i change n) :
    ∃ l change' came, i ≤ l ∧ l < n ∧ log[l]? = some (.recorded change' came) ∧
      (change'.path == change.path) = true ∧
      standing? (log.take n) change.path = some (change'.kind, came) := by
  induction n with
  | zero => exact absurd h.later (Nat.not_lt_zero i)
  | succ n ih =>
    rcases Nat.lt_succ_iff_lt_or_eq.mp h.later with inside | rfl
    · have before : Outstanding log i change n :=
        ⟨h.recorded, inside, fun k now changes after before =>
          h.kept k now changes after (Nat.lt_succ_of_lt before)⟩
      obtain ⟨l, change', came, ge, lt, here, same, standing⟩ := ih before
      rw [standing?_take_succ]
      cases at_n : log[n]? with
      | none => exact ⟨l, change', came, ge, Nat.lt_succ_of_lt lt, here, same, standing⟩
      | some e =>
        cases e with
        | recorded change₁ now =>
          cases newer : change₁.path == change.path with
          | true =>
            refine ⟨n, change₁, now, Nat.le_of_lt inside, Nat.lt_succ_self n, at_n, newer, ?_⟩
            simp [Event.leaves, newer]
          | false =>
            refine ⟨l, change', came, ge, Nat.lt_succ_of_lt lt, here, same, ?_⟩
            simpa [Event.leaves, newer] using standing
        | drained now changes =>
          refine ⟨l, change', came, ge, Nat.lt_succ_of_lt lt, here, same, ?_⟩
          have aside := h.kept n now changes inside (Nat.lt_succ_self n) at_n
          simpa [Event.leaves, aside] using standing
    · obtain ⟨now, at_i⟩ := h.recorded
      refine ⟨i, change, now, Nat.le_refl i, Nat.lt_succ_self i, at_i, BEq.rfl, ?_⟩
      simp [standing?_take_succ, at_i, Event.leaves]

/-- A change that came in is covered once at most. -/
theorem Covers.unique (run : Run window log d) {i j j' : Nat} {change returned returned' : Change}
    (h : Covers log i change j returned) (h' : Covers log i change j' returned') :
    j = j' ∧ returned = returned' := by
  have not_lt {j j' : Nat} {returned returned' : Change} (h : Covers log i change j returned)
      (h' : Covers log i change j' returned') : ¬ j < j' := by
    intro lt
    obtain ⟨now, changes, at_j, mem⟩ := h.drained
    have none_ := h'.outstanding.kept j now changes h.outstanding.later lt at_j
    rw [List.any_eq_false] at none_
    exact none_ returned mem h.same
  obtain rfl : j = j' := Nat.le_antisymm (Nat.le_of_not_lt (not_lt h' h))
    (Nat.le_of_not_lt (not_lt h h'))
  obtain ⟨now, changes, at_j, mem⟩ := h.drained
  obtain ⟨now', changes', at_j', mem'⟩ := h'.drained
  rw [at_j] at at_j'
  cases at_j'
  obtain ⟨d', t, rfl⟩ := run.drained at_j
  refine ⟨rfl, ?_⟩
  have symm : Std.Symm fun c c' : Change => (c.path == c'.path) = false :=
    ⟨fun c c' other => BEq.comm.trans other⟩
  by_contra other
  have apart := (t.keeps.once now).forall mem mem' other
  rw [BEq.trans h.same (BEq.symm h'.same)] at apart
  cases apart

/-- A change that came in is outstanding, or covered. -/
theorem outstanding_or_covered {i n now : Nat} {change : Change}
    (here : log[i]? = some (.recorded change now)) (later : i < n) :
    Outstanding log i change n ∨ ∃ j returned, j < n ∧ Covers log i change j returned := by
  induction n with
  | zero => exact absurd later (Nat.not_lt_zero i)
  | succ n ih =>
    rcases Nat.lt_succ_iff_lt_or_eq.mp later with inside | rfl
    · rcases ih inside with open_ | ⟨j, returned, lt, covers⟩
      · by_cases back : ∃ now changes, log[n]? = some (.drained now changes) ∧
          changes.any (·.path == change.path) = true
        · obtain ⟨now, changes, at_n, any⟩ := back
          obtain ⟨returned, mem, same⟩ := List.any_eq_true.mp any
          exact .inr ⟨n, returned, Nat.lt_succ_self n, open_, ⟨now, changes, at_n, mem⟩, same⟩
        · refine .inl (open_.succ fun now changes at_n => ?_)
          rw [← Bool.not_eq_true]
          exact fun any => back ⟨now, changes, at_n, any⟩
      · exact .inr ⟨j, returned, Nat.lt_succ_of_lt lt, covers⟩
    · refine .inl ⟨⟨now, here⟩, Nat.lt_succ_self i, fun k now changes after before => ?_⟩
      exact absurd after (Nat.not_lt.mpr (Nat.le_of_lt_succ before))

/-- Every change that a drain returned covers one that came in. -/
theorem Run.exists_covered (run : Run window log d) {j now : Nat} {changes : List Change}
    {returned : Change} (here : log[j]? = some (.drained now changes)) (mem : returned ∈ changes) :
    ∃ i change, Covers log i change j returned := by
  obtain ⟨d', t, rfl⟩ := run.drained here
  obtain ⟨came, standing, -⟩ := t.keeps.returned.mp ⟨returned, mem, BEq.rfl, rfl⟩
  obtain ⟨i, change, -, outstanding, same, -⟩ := exists_outstanding standing
  exact ⟨i, change, outstanding, ⟨now, _, here, mem⟩, BEq.symm same⟩

/-- A drain that comes late enough covers all that is outstanding. -/
theorem Run.covers (run : Run window log d) {i k now : Nat} {change : Change}
    {changes : List Change} (here : log[k]? = some (.drained now changes))
    (open_ : Outstanding log i change k)
    (late : ∀ l change' came, i ≤ l → l < k → log[l]? = some (.recorded change' came) →
      (change'.path == change.path) = true → came + window ≤ now) :
    ∃ returned, Covers log i change k returned := by
  obtain ⟨d', t, rfl⟩ := run.drained here
  obtain ⟨l, change', came, ge, lt, at_l, same, standing⟩ := open_.standing
  obtain ⟨returned, mem, same, -⟩ :=
    t.keeps.returned.mpr ⟨came, standing, late l change' came ge lt at_l same⟩
  exact ⟨returned, open_, ⟨now, _, here, mem⟩, same⟩

/-! ### All together -/

/-- What holds of a debouncer with a window after a history. -/
structure Trailing (window : Nat) (log : List Event) (d : Debouncer) : Prop where
  /-- A drain returns a path exactly if a change of it stands whose window is over, and with the
  kind of that change. -/
  returned : ∀ now p kind,
    (∃ change ∈ (d.drain now).1, (change.path == p) = true ∧ change.kind = kind) ↔
      ∃ came, standing? log p = some (kind, came) ∧ came + window ≤ now
  /-- It returns no path twice. -/
  once : ∀ now, (d.drain now).1.Pairwise fun c c' => (c.path == c'.path) = false
  /-- The window that was over first comes first. -/
  ordered : ∀ now, (d.drain now).1.Pairwise fun c c' =>
    ∀ kind came kind' came', standing? log c.path = some (kind, came) →
      standing? log c'.path = some (kind', came') → came + window ≤ came' + window
  /-- The next deadline is that of the window that is over next. -/
  next : IsNext window log d.nextDeadline?
  /-- So it is after a drain, and no window is over then. -/
  after : ∀ now,
    IsNext window (log ++ [.drained now (d.drain now).1]) (d.drain now).2.nextDeadline? ∧
    ∀ deadline, (d.drain now).2.nextDeadline? = some deadline → now < deadline
  /-- A change that came in is covered by one change that was returned, once there was a drain for
  which the windows of all changes of this path were over. -/
  covered : ∀ i k came now change changes, log[i]? = some (.recorded change came) → i < k →
    log[k]? = some (.drained now changes) →
    (∀ l change' came', i ≤ l → l < k → log[l]? = some (.recorded change' came') →
      (change'.path == change.path) = true → came' + window ≤ now) →
    ∃ j returned, j ≤ k ∧ Covers log i change j returned ∧
      ∀ j' returned', Covers log i change j' returned' → j' = j ∧ returned' = returned
  /-- A change that was returned covers one that came in. -/
  covering : ∀ j now changes returned, log[j]? = some (.drained now changes) →
    returned ∈ changes → ∃ i change, Covers log i change j returned

/-- **Changes are reported when their file has been left alone for a window**: the last change of
each path alone, and none is lost or told twice. -/
theorem Run.trailing (run : Run window log d) : Trailing window log d := by
  have keeps := run.keeps
  refine ⟨fun _ _ _ => keeps.returned, keeps.once, fun now => ?_, keeps.next, fun now => ?_, ?_,
    fun j now changes returned => run.exists_covered⟩
  · refine (keeps.ordered now).imp fun h => ?_
    intro kind came kind' came' standing standing'
    exact Nat.add_le_add_right (h kind came kind' came' standing standing') window
  · exact ⟨(run.drain now).keeps.next, fun deadline => lt_of_nextDeadline?⟩
  · intro i k came now change changes at_i later at_k late
    have some_ : ∃ j returned, j ≤ k ∧ Covers log i change j returned := by
      rcases outstanding_or_covered at_i later with open_ | ⟨j, returned, lt, covers⟩
      · obtain ⟨returned, covers⟩ := run.covers at_k open_ late
        exact ⟨k, returned, Nat.le_refl k, covers⟩
      · exact ⟨j, returned, Nat.le_of_lt lt, covers⟩
    obtain ⟨j, returned, le, covers⟩ := some_
    exact ⟨j, returned, le, covers, fun j' returned' covers' => covers'.unique run covers⟩

end Watch.Debouncer

namespace Sample

open Watch Debouncer

/-- Two files change, one of them again within its window and under another spelling; a drain takes
place at the very moment at which the other's window is over, and that file changes once more. -/
def twoFiles : List Event :=
  [.recorded ⟨.modified, ⟨"/a"⟩⟩ 0, .recorded ⟨.modified, ⟨"/b"⟩⟩ 10,
    .recorded ⟨.deleted, ⟨"//a"⟩⟩ 40, .drained 60 [⟨.modified, ⟨"/b"⟩⟩],
    .recorded ⟨.deleted, ⟨"/b/"⟩⟩ 70, .drained 120 [⟨.deleted, ⟨"/a"⟩⟩, ⟨.deleted, ⟨"/b/"⟩⟩]]

/-- Each file is told of when it has been left alone, and nothing is held back in the end. -/
theorem twoFiles_trailing : Run 50 twoFiles { window := 50 } ∧
    Trailing 50 twoFiles { window := 50 } := by
  have paths : ((⟨"/a"⟩ : Path) == ⟨"/b"⟩) = false ∧ ((⟨"/a"⟩ : Path) == ⟨"//a"⟩) = true ∧
      ((⟨"/a"⟩ : Path) == ⟨"/b/"⟩) = false := by decide +kernel
  obtain ⟨other, same, other'⟩ := paths
  have burst := (((@Run.start 50).record ⟨.modified, ⟨"/a"⟩⟩ 0).record
    ⟨.modified, ⟨"/b"⟩⟩ 10).record ⟨.deleted, ⟨"//a"⟩⟩ 40
  have told : Run 50 (twoFiles.take 4)
      { window := 50, pending := [(⟨"/a"⟩, ⟨.deleted, 90⟩)] } := by
    simpa [twoFiles, record, Assoc.insert, other, same, drain_eq, ready] using burst.drain 60
  have more : Run 50 (twoFiles.take 5)
      { window := 50, pending := [(⟨"/a"⟩, ⟨.deleted, 90⟩), (⟨"/b/"⟩, ⟨.deleted, 120⟩)] } := by
    simpa [twoFiles, record, Assoc.insert, other'] using told.record ⟨.deleted, ⟨"/b/"⟩⟩ 70
  have run : Run 50 twoFiles { window := 50 } := by
    have last := more.drain 120
    simp only [drain_eq, ready] at last
    rw [List.mergeSort_of_pairwise (by simp)] at last
    simpa [twoFiles] using last
  exact ⟨run, run.trailing⟩

end Sample

end HotReload
