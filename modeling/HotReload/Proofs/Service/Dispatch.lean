import HotReload.Proofs.Service.Subscribers
import Mathlib.Data.List.Induction

/-!
# Telling subscribers who come and go meanwhile

What a subscriber does when it is told of a change may be to subscribe others, to unsubscribe anyone,
itself included, and to make the source report again.  A `Hub` is a fan-out with the changes that it
is telling its subscribers of: a change goes to those whom `Fanout.recipients?` names when the source
reports it, one call after the other, and between two calls anything can happen.  Calls that nest are
among its runs, and so are calls that overlap.

* `Hub.Step`, `Hub.Run`: what can happen to a hub, with what is seen of it.
* `Hub.registered`: who is registered after what was seen, whatever the fan-out says.
* `Hub.Lawful`, `Hub.Run.lawful`: the law of every run.
* `Hub.Run.tellAll`: telling the recipients with `tellAll` is a run, whatever each does when called.
-/

namespace HotReload

/-! ### What can happen -/

/-- A change that subscribers are being told of. -/
structure Dispatch (α : Type) where
  number : Nat
  change : Change
  /-- Who is still to be told. -/
  waiting : List α

/-- A fan-out with the changes that its subscribers are being told of. -/
structure Hub (α : Type) where
  fanout : Fanout α := {}
  underway : List (Dispatch α) := []
  /-- How many changes found a listener. -/
  reports : Nat := 0

namespace Hub

/-- What is seen of a hub. -/
inductive Note (α : Type) where
  /-- A subscriber was added. -/
  | joined (id : SubscriberId) (subscriber : α)
  /-- A subscriber was not added, because the source refused the listener. -/
  | turnedAway (subscriber : α) (reason : String)
  /-- A subscriber was to be taken out, and was there or not. -/
  | left (id : SubscriberId) (was : Bool)
  /-- The source comes to refuse the next listener or not, and to cling to the one it has or not. -/
  | troubled
  /-- The source reports a change to its listener. -/
  | reported (number : Nat) (change : Change)
  /-- The source reports a change and has no listener. -/
  | unheard (change : Change)
  /-- A subscriber is told of a change. -/
  | told (number : Nat) (change : Change) (subscriber : α)
  /-- All who were to be told of a change have been told. -/
  | finished (number : Nat)

/-- The hub that begins to tell some subscribers of a change. -/
def reporting {α : Type} (h : Hub α) (change : Change) (recipients : List α) : Hub α :=
  { h with
    underway := ⟨h.reports, change, recipients⟩ :: h.underway
    reports := h.reports + 1 }

/-- What can happen to a hub.  A subscriber that is told does what it does in the steps that follow:
they are those of any run. -/
inductive Step {α : Type} (h : Hub α) : Note α → Hub α → Prop where
  | subscribe {subscriber : α} {id : SubscriberId} {fanout : Fanout α}
      (joins : h.fanout.subscribe subscriber = (.ok id, fanout)) :
      Step h (.joined id subscriber) { h with fanout }
  | turnAway {subscriber : α} {reason : String} {fanout : Fanout α}
      (refused : h.fanout.subscribe subscriber = (.error reason, fanout)) :
      Step h (.turnedAway subscriber reason) { h with fanout }
  | unsubscribe (id : SubscriberId) :
      Step h (.left id (h.fanout.unsubscribe id).1)
        { h with fanout := (h.fanout.unsubscribe id).2 }
  | trouble (refusal : Option String) (isSticky : Bool) :
      Step h .troubled
        { h with fanout.source := { h.fanout.source with refusal, isSticky } }
  | report (change : Change) {recipients : List α}
      (heard : h.fanout.recipients? = some recipients) :
      Step h (.reported h.reports change) (h.reporting change recipients)
  | miss (change : Change) (unheard : h.fanout.recipients? = none) : Step h (.unheard change) h
  | tell {before after : List (Dispatch α)} {number : Nat} {change : Change} {subscriber : α}
      {waiting : List α}
      (next : h.underway = before ++ ⟨number, change, subscriber :: waiting⟩ :: after) :
      Step h (.told number change subscriber)
        { h with underway := before ++ ⟨number, change, waiting⟩ :: after }
  | finish {before after : List (Dispatch α)} {number : Nat} {change : Change}
      (drained : h.underway = before ++ ⟨number, change, []⟩ :: after) :
      Step h (.finished number) { h with underway := before ++ after }

/-- Any number of steps, and what is seen of them. -/
inductive Run {α : Type} (h₀ : Hub α) : List (Note α) → Hub α → Prop where
  | start : Run h₀ [] h₀
  | step {log : List (Note α)} {note : Note α} {h h' : Hub α} (t : Run h₀ log h)
      (next : Step h note h') : Run h₀ (log ++ [note]) h'

/-! ### What the notes say -/

namespace Note

variable {α : Type}

/-- Who is registered after a note. -/
def registers (registered : List (SubscriberId × α)) : Note α → List (SubscriberId × α)
  | .joined id subscriber => registered ++ [(id, subscriber)]
  | .left id _ => registered.filter (·.1 != id)
  | _ => registered

/-- The number that a subscriber is given. -/
def id? : Note α → Option SubscriberId
  | .joined id _ => some id
  | _ => none

/-- The number of a report. -/
def report? : Note α → Option Nat
  | .reported number _ => some number
  | _ => none

/-- Who is told of a report, and of what. -/
def told? (number : Nat) : Note α → Option (α × Change)
  | .told n change subscriber => if n = number then some (subscriber, change) else none
  | _ => none

end Note

section Logs

variable {α : Type}

/-- Who is registered after what was seen, in the order of subscription: those who joined and did
not leave. -/
def registered (log : List (Note α)) : List (SubscriberId × α) := log.foldl Note.registers []

/-- The numbers that subscribers were given, one after the other. -/
def handedOut (log : List (Note α)) : List SubscriberId := log.filterMap Note.id?

/-- The numbers of the reports. -/
def reported (log : List (Note α)) : List Nat := log.filterMap Note.report?

/-- Who was told of a report, one after the other. -/
def toldOf (number : Nat) (log : List (Note α)) : List (α × Change) :=
  log.filterMap (Note.told? number)

@[simp] theorem registered_concat (log : List (Note α)) (note : Note α) :
    registered (log ++ [note]) = note.registers (registered log) := by
  rw [registered, List.foldl_concat]
  rfl

@[simp] theorem handedOut_concat (log : List (Note α)) (note : Note α) :
    handedOut (log ++ [note]) = handedOut log ++ note.id?.toList := by
  cases given : note.id? <;> simp [handedOut, given]

@[simp] theorem reported_concat (log : List (Note α)) (note : Note α) :
    reported (log ++ [note]) = reported log ++ note.report?.toList := by
  cases number : note.report? <;> simp [reported, number]

@[simp] theorem toldOf_concat (number : Nat) (log : List (Note α)) (note : Note α) :
    toldOf number (log ++ [note]) = toldOf number log ++ (note.told? number).toList := by
  cases told : note.told? number <;> simp [toldOf, told]

end Logs

/-! ### What every run keeps -/

section Kept

variable {α : Type} {h h' : Hub α} {log : List (Note α)} {note : Note α}

/-- How far a hub is with a report whose subscribers were `due`: they are told in turn, and the
report is finished when all have been told. -/
inductive Account (h : Hub α) (log : List (Note α)) (number : Nat) (due : List (α × Change)) :
    Prop where
  | running (dispatch : Dispatch α) (mem : dispatch ∈ h.underway)
      (numbered : dispatch.number = number)
      (so_far : toldOf number log ++ dispatch.waiting.map (·, dispatch.change) = due)
  | ended (finished : .finished number ∈ log) (all : toldOf number log = due)

/-- The subscribers of a hub are those of which its notes tell. -/
structure Registered (log : List (Note α)) (h : Hub α) : Prop where
  sound : h.fanout.Sound
  subscribers : h.fanout.subscribers = registered log
  ascending : (handedOut log).Pairwise (· < ·)
  below : ∀ id ∈ handedOut log, id < h.fanout.nextId

/-- The changes that a hub is telling its subscribers of are those that were reported and are not
finished. -/
structure Dispatching (log : List (Note α)) (h : Hub α) : Prop where
  counted : reported log = List.range h.reports
  distinct : (h.underway.map Dispatch.number).Nodup
  numbered : ∀ number ∈ h.underway.map Dispatch.number, number < h.reports
  unfinished : ∀ number ∈ h.underway.map Dispatch.number, .finished number ∉ log
  /-- Nobody was told of what is still to be reported. -/
  silent : ∀ number, h.reports ≤ number → toldOf number log = [] ∧ .finished number ∉ log
  /-- Those are told of a change who were registered when it was reported. -/
  accounts : ∀ before number change after, log = before ++ .reported number change :: after →
    number < h.reports ∧ h.Account log number ((registered before).map fun e => (e.2, change))

/-- What leaves the fan-out to its subscribers, and tells of none that joins or leaves. -/
theorem Registered.aside (kept : Registered log h) (same : h'.fanout = h.fanout)
    (registers : note.registers (registered log) = registered log) (id : note.id? = none) :
    Registered (log ++ [note]) h' where
  sound := by rw [same]; exact kept.sound
  subscribers := by rw [same, registered_concat, registers, kept.subscribers]
  ascending := by simpa [id] using kept.ascending
  below := by simpa [id, same] using kept.below

/-- **A step** keeps the subscribers those of which the notes tell. -/
theorem Registered.step (kept : Registered log h) (step : Step h note h') :
    Registered (log ++ [note]) h' := by
  cases step with
  | subscribe joins =>
    obtain ⟨sound, rfl, next, subscribers⟩ := kept.sound.subscribe_ok joins
    refine ⟨sound, ?_, ?_, fun id mem => ?_⟩
    · rw [registered_concat, ← kept.subscribers]
      exact subscribers
    · rw [handedOut_concat]
      exact ascending_concat kept.ascending kept.below
    · rw [handedOut_concat] at mem
      rw [next]
      rcases List.mem_append.mp mem with mem | mem
      · exact Nat.lt_succ_of_lt (kept.below id mem)
      · rw [List.mem_singleton.mp mem]
        exact Nat.lt_succ_self _
  | turnAway refused =>
    obtain ⟨same, attached⟩ := Fanout.subscribe_error refused
    refine ⟨?_, ?_, ?_, ?_⟩
    · rw [same]
      exact kept.sound.withSource attached
    · rw [same, registered_concat]
      exact kept.subscribers
    · simpa [Note.id?] using kept.ascending
    · rw [same]
      simpa [Note.id?] using kept.below
  | unsubscribe id =>
    refine ⟨kept.sound.unsubscribe id, ?_, ?_, ?_⟩
    · rw [registered_concat, ← kept.subscribers]
      exact h.fanout.unsubscribe_subscribers id
    · simpa [Note.id?] using kept.ascending
    · simpa [Note.id?, Fanout.unsubscribe_nextId] using kept.below
  | trouble refusal isSticky =>
    refine ⟨kept.sound.withSource rfl, ?_, ?_, ?_⟩
    · rw [registered_concat]
      exact kept.subscribers
    · simpa [Note.id?] using kept.ascending
    · simpa [Note.id?] using kept.below
  | report => exact kept.aside rfl rfl rfl
  | miss => exact kept.aside rfl rfl rfl
  | tell => exact kept.aside rfl rfl rfl
  | finish => exact kept.aside rfl rfl rfl

/-- A report stands in the notes before the last one, or is the last one. -/
theorem accounts_concat {P : List (Note α) → Nat → Change → Prop}
    (old : ∀ before number change after, log = before ++ .reported number change :: after →
      P before number change)
    (new : ∀ number change, note = .reported number change → P log number change) :
    ∀ before number change after, log ++ [note] = before ++ .reported number change :: after →
      P before number change := by
  intro before number change after split
  rcases List.eq_nil_or_concat after with rfl | ⟨after, last, rfl⟩
  · obtain ⟨rfl, last⟩ := List.append_inj' split rfl
    exact new number change (List.cons.inj last).1
  · rw [List.concat_eq_append, ← List.cons_append, ← List.append_assoc] at split
    exact old before number change after (List.append_inj' split rfl).1

/-- Nobody is told of the report. -/
theorem Account.aside {number : Nat} {due : List (α × Change)} (account : h.Account log number due)
    (told : note.told? number = none) (same : ∀ d ∈ h.underway, d ∈ h'.underway) :
    h'.Account (log ++ [note]) number due := by
  cases account with
  | running dispatch mem numbered so_far =>
    exact .running dispatch (same _ mem) numbered (by simpa [told] using so_far)
  | ended finished all => exact .ended (List.mem_append_left _ finished) (by simpa [told] using all)

/-- What neither reports a change nor goes on with one. -/
theorem Dispatching.aside (kept : Dispatching log h) (underway : h'.underway = h.underway)
    (reports : h'.reports = h.reports) (told : ∀ number, note.told? number = none)
    (finished : ∀ number, note ≠ .finished number)
    (reported : ∀ number change, note ≠ .reported number change) :
    Dispatching (log ++ [note]) h' where
  counted := by
    have none : note.report? = none := by
      cases note with
      | reported number change => exact absurd rfl (reported number change)
      | _ => rfl
    simp [none, reports, kept.counted]
  distinct := by rw [underway]; exact kept.distinct
  numbered := by rw [underway, reports]; exact kept.numbered
  unfinished number mem := by
    rw [underway] at mem
    simp [kept.unfinished number mem, (finished number).symm]
  silent number le := by
    rw [reports] at le
    obtain ⟨none, unfinished⟩ := kept.silent number le
    simp [none, told, unfinished, (finished number).symm]
  accounts := by
    rw [reports]
    refine accounts_concat (fun before number change after split => ?_)
      fun number change same => absurd same (reported number change)
    obtain ⟨lt, account⟩ := kept.accounts before number change after split
    exact ⟨lt, account.aside (told number) fun d mem => underway ▸ mem⟩

/-- **A report** is owed to those who are registered. -/
theorem Dispatching.report (kept : Dispatching log h) (change : Change) {recipients : List α}
    (due : recipients = (registered log).map (·.2)) :
    Dispatching (log ++ [.reported h.reports change]) (h.reporting change recipients) where
  counted := by simp [reporting, Note.report?, kept.counted, List.range_succ]
  distinct := by
    rw [reporting, List.map_cons, List.nodup_cons]
    exact ⟨fun mem => Nat.lt_irrefl _ (kept.numbered _ mem), kept.distinct⟩
  numbered number mem := by
    rcases List.mem_cons.mp mem with rfl | mem
    · exact Nat.lt_succ_self _
    · exact Nat.lt_succ_of_lt (kept.numbered number mem)
  unfinished number mem := by
    rcases List.mem_cons.mp mem with rfl | mem
    · simp [(kept.silent h.reports (Nat.le_refl _)).2]
    · simp [kept.unfinished number mem]
  silent number le := by
    obtain ⟨none, unfinished⟩ := kept.silent number (Nat.le_of_succ_le le)
    simp [none, unfinished, Note.told?]
  accounts := by
    refine accounts_concat (fun before number change after split => ?_) ?_
    · obtain ⟨lt, account⟩ := kept.accounts before number change after split
      exact ⟨Nat.lt_succ_of_lt lt, account.aside rfl fun d mem => List.mem_cons_of_mem _ mem⟩
    · rintro number change ⟨⟩
      refine ⟨Nat.lt_succ_self _, .running _ List.mem_cons_self rfl ?_⟩
      simp [(kept.silent h.reports (Nat.le_refl _)).1, Note.told?, due]

section Going

variable {before after : List (Dispatch α)} {number : Nat} {change : Change}

/-- Of the changes under way, all but the one that goes on have another number. -/
theorem Dispatching.eq_or_mem (kept : Dispatching log h) {d d' : Dispatch α}
    (next : h.underway = before ++ d' :: after) (mem : d ∈ h.underway) :
    d = d' ∨ d.number ≠ d'.number ∧ d ∈ before ++ after := by
  have mem' : d' ∈ h.underway := by simp [next]
  by_cases same : d.number = d'.number
  · exact .inl (List.inj_on_of_nodup_map kept.distinct mem mem' same)
  · have different : d ≠ d' := fun eq => same (congrArg _ eq)
    rw [next] at mem
    exact .inr ⟨same, by simpa [different] using mem⟩

/-- **The next subscriber is told** of a change. -/
theorem Dispatching.tell (kept : Dispatching log h) {subscriber : α} {waiting : List α}
    (next : h.underway = before ++ ⟨number, change, subscriber :: waiting⟩ :: after) :
    Dispatching (log ++ [.told number change subscriber])
      { h with underway := before ++ ⟨number, change, waiting⟩ :: after } := by
  have same : (before ++ ⟨number, change, waiting⟩ :: after).map Dispatch.number =
      h.underway.map Dispatch.number := by simp [next]
  have here : number ∈ h.underway.map Dispatch.number := by simp [next]
  have counted : reported (log ++ [.told number change subscriber]) = List.range h.reports := by
    simp [Note.report?, kept.counted]
  refine ⟨counted, same ▸ kept.distinct, same ▸ kept.numbered, fun n mem => ?_, fun n le => ?_, ?_⟩
  · simp [kept.unfinished n (same ▸ mem)]
  · have other : number ≠ n := Nat.ne_of_lt (Nat.lt_of_lt_of_le (kept.numbered _ here) le)
    obtain ⟨none, unfinished⟩ := kept.silent n le
    simp [none, unfinished, Note.told?, other]
  · refine accounts_concat (fun earlier n reported later split => ?_) fun _ _ h => by cases h
    obtain ⟨lt, account⟩ := kept.accounts earlier n reported later split
    refine ⟨lt, ?_⟩
    cases account with
    | running d mem numbered so_far =>
      rcases kept.eq_or_mem next mem with rfl | ⟨other, stays⟩
      · refine .running ⟨number, change, waiting⟩ (by simp) numbered ?_
        simpa [Note.told?, show number = n from numbered] using so_far
      · have other : number ≠ n := numbered ▸ Ne.symm other
        refine .running d ?_ numbered (by simpa [Note.told?, other] using so_far)
        rcases List.mem_append.mp stays with mem | mem <;> simp [mem]
    | ended finished all =>
      have other : number ≠ n := fun same => kept.unfinished _ here (same ▸ finished)
      exact .ended (List.mem_append_left _ finished) (by simpa [Note.told?, other] using all)

/-- **A report is finished** when all have been told. -/
theorem Dispatching.finish (kept : Dispatching log h)
    (drained : h.underway = before ++ ⟨number, change, []⟩ :: after) :
    Dispatching (log ++ [.finished number]) { h with underway := before ++ after } := by
  have fewer : ((before ++ after).map Dispatch.number).Sublist
      (h.underway.map Dispatch.number) := by
    rw [drained]
    exact ((List.sublist_cons_self _ _).append_left before).map _
  have gone : number ∉ (before ++ after).map Dispatch.number := by
    have distinct := kept.distinct
    rw [drained, List.map_append, List.map_cons] at distinct
    rw [List.map_append]
    exact (List.nodup_middle.mp distinct).notMem
  have here : number ∈ h.underway.map Dispatch.number := by simp [drained]
  have counted : reported (log ++ [.finished number]) = List.range h.reports := by
    simp [Note.report?, kept.counted]
  refine ⟨counted, kept.distinct.sublist fewer, fun n mem => kept.numbered n (fewer.subset mem),
    fun n mem => ?_, fun n le => ?_, ?_⟩
  · have other : n ≠ number := fun same => gone (same ▸ mem)
    simp [kept.unfinished n (fewer.subset mem), other]
  · have other : n ≠ number := Nat.ne_of_gt (Nat.lt_of_lt_of_le (kept.numbered _ here) le)
    obtain ⟨none, unfinished⟩ := kept.silent n le
    simp [none, unfinished, Note.told?, other]
  · refine accounts_concat (fun earlier n reported later split => ?_) fun _ _ h => by cases h
    obtain ⟨lt, account⟩ := kept.accounts earlier n reported later split
    refine ⟨lt, ?_⟩
    cases account with
    | running d mem numbered so_far =>
      rcases kept.eq_or_mem drained mem with rfl | ⟨other, stays⟩
      · exact .ended (by simp [show number = n from numbered])
          (by simpa [Note.told?] using so_far)
      · exact .running d stays numbered (by simpa [Note.told?] using so_far)
    | ended finished all =>
      exact .ended (List.mem_append_left _ finished) (by simpa [Note.told?] using all)

end Going

/-- **A step** keeps the accounts of what was reported. -/
theorem Dispatching.step (registered : Registered log h) (kept : Dispatching log h)
    (step : Step h note h') : Dispatching (log ++ [note]) h' := by
  cases step with
  | subscribe | turnAway | unsubscribe | trouble | miss =>
    exact kept.aside rfl rfl (fun _ => rfl) (by simp) (by simp)
  | report change heard =>
    refine kept.report change ?_
    rw [Fanout.recipients?] at heard
    split at heard
    · rw [← Option.some.inj heard, registered.sound.recipients, registered.subscribers]
    · cases heard
  | tell next => exact kept.tell next
  | finish drained => exact kept.finish drained

/-- Who is registered was given a number once, and in this order. -/
theorem registered_sublist (log : List (Note α)) :
    ((registered log).map (·.1)).Sublist (handedOut log) := by
  induction log using List.reverseRecOn with
  | nil => exact .slnil
  | append_singleton log note ih =>
    rw [registered_concat, handedOut_concat]
    cases note with
    | joined id subscriber =>
      rw [Note.registers, List.map_append]
      exact ih.append_right _
    | left id was =>
      rw [Note.registers]
      exact ((List.filter_sublist.map _).trans ih).trans (List.sublist_append_left _ _)
    | _ => exact ih.trans (List.sublist_append_left _ _)

end Kept

/-- **What holds of a hub** whatever was done, between two calls as well as between two reports. -/
structure Lawful {α : Type} (log : List (Note α)) (h : Hub α) : Prop where
  /-- The subscribers are those who joined and did not leave. -/
  subscribers : h.fanout.subscribers = registered log
  /-- The order enumerates the subscribers, each once. -/
  order : h.fanout.order.Nodup ∧
    ∀ id, id ∈ h.fanout.order ↔ Assoc.contains h.fanout.subscribers id = true
  /-- The fan-out takes itself to be attached exactly while it has subscribers. -/
  attached : h.fanout.isAttached = true ↔ h.fanout.subscribers ≠ []
  /-- While it has some, the source has its listener. -/
  held : h.fanout.subscribers ≠ [] → h.fanout.source.isAttached = true
  /-- No number is given out again. -/
  ids : (handedOut log).Pairwise (· < ·)
  /-- A subscriber that is refused leaves the registry as it was. -/
  refused : ∀ {subscriber : α} {reason : String} {fanout : Fanout α},
    h.fanout.subscribe subscriber = (.error reason, fanout) →
      fanout = { h.fanout with source := fanout.source }
  /-- To unsubscribe succeeds for who is registered, and takes out no other. -/
  unsubscribed : ∀ id, ((h.fanout.unsubscribe id).1 = true ↔ id ∈ h.fanout.order) ∧
    (h.fanout.unsubscribe id).2.subscribers = h.fanout.subscribers.filter (·.1 != id) ∧
    (h.fanout.unsubscribe id).2.order = h.fanout.order.filter (· != id)
  /-- Every report has its own number, and nobody is told but of a report. -/
  reports : (reported log).Nodup ∧ ∀ number, toldOf number log ≠ [] → number ∈ reported log
  /-- Of a report those are told who were registered when it was made, in the order of their
  numbers, each once; when it is finished, all of them. -/
  told : ∀ before number change after, log = before ++ .reported number change :: after →
    ((registered before).map (·.1)).Pairwise (· < ·) ∧
      toldOf number log <+: (registered before).map (fun e => (e.2, change)) ∧
      (.finished number ∈ log →
        toldOf number log = (registered before).map fun e => (e.2, change))

namespace Run

variable {α : Type} {h₀ h h' : Hub α} {log log' : List (Note α)}

theorem trans (run : Run h₀ log h) (more : Run h log' h') : Run h₀ (log ++ log') h' := by
  induction more with
  | start => simpa using run
  | step _ next ih =>
    rw [← List.append_assoc]
    exact ih.step next

theorem registered (run : Run ({} : Hub α) log h) : Registered log h := by
  induction run with
  | start => exact ⟨.empty, rfl, .nil, fun _ mem => absurd mem List.not_mem_nil⟩
  | step _ next ih => exact ih.step next

theorem dispatching (run : Run ({} : Hub α) log h) : Dispatching log h := by
  induction run with
  | start =>
    refine ⟨rfl, .nil, by simp, by simp, fun _ _ => ⟨rfl, List.not_mem_nil⟩, ?_⟩
    intro before number change after none
    simp at none
  | step run next ih => exact ih.step run.registered next

/-- **The law of a fan-out** whose subscribers subscribe, unsubscribe and report while they are
told, over a source that refuses a listener or clings to it at any time. -/
theorem lawful (run : Run ({} : Hub α) log h) : Lawful log h := by
  have kept := run.registered
  have dispatching := run.dispatching
  refine ⟨kept.subscribers, ⟨kept.sound.nodup, fun id => ?_⟩, ?_, fun some => ?_, kept.ascending,
    fun refused => (Fanout.subscribe_error refused).1, fun id => ⟨?_, ?_, ?_⟩, ⟨?_, ?_⟩, ?_⟩
  · rw [kept.sound.ordered, Assoc.contains_iff]
  · rw [kept.sound.attached, Bool.not_eq_true', List.isEmpty_eq_false_iff]
  · exact kept.sound.held (by simpa [kept.sound.attached] using some)
  · rw [Fanout.unsubscribe_fst, kept.sound.ordered, Assoc.contains_iff]
  · exact h.fanout.unsubscribe_subscribers id
  · exact kept.sound.unsubscribe_order id
  · rw [dispatching.counted]
    exact List.nodup_range
  · intro number some
    rw [dispatching.counted, List.mem_range]
    by_contra later
    exact some (dispatching.silent number (Nat.le_of_not_lt later)).1
  · intro before number change after split
    have given : (handedOut before).Sublist (handedOut log) := by
      rw [split]
      exact (List.sublist_append_left _ _).filterMap _
    refine ⟨kept.ascending.sublist ((registered_sublist before).trans given), ?_⟩
    obtain ⟨-, account⟩ := dispatching.accounts before number change after split
    cases account with
    | running d mem numbered so_far =>
      refine ⟨⟨_, so_far⟩, fun finished => ?_⟩
      have unfinished := dispatching.unfinished _ (List.mem_map_of_mem mem)
      rw [numbered] at unfinished
      exact absurd finished unfinished
    | ended _ all => exact ⟨all ▸ List.prefix_rfl, fun _ => all⟩

end Run

/-! ### Calls that nest -/

section Nested

variable {α : Type}

/-- The next one to be told of the change that was reported last. -/
def called (h : Hub α) : Hub α :=
  match h.underway with
  | ⟨number, change, _ :: waiting⟩ :: others =>
    { h with underway := ⟨number, change, waiting⟩ :: others }
  | _ => h

/-- The source reports a change, and each of its recipients does `act` when it is told. -/
def emit (act : α → Hub α → Hub α) (change : Change) (h : Hub α) : Hub α :=
  match h.fanout.recipients? with
  | none => h
  | some recipients =>
    let h' := tellAll (fun subscriber h => act subscriber h.called) recipients
      (h.reporting change recipients)
    { h' with underway := h'.underway.tail }

/-- What is done in a call is a run, and has come to its end when the call returns. -/
def Returns (act : Hub α → Hub α) : Prop :=
  ∀ h, (∃ log, Run h log (act h)) ∧ (act h).underway = h.underway

/-- **Telling the recipients** one after the other is a run, whatever each does when it is told. -/
theorem Run.tellAll {act : α → Hub α → Hub α} (returns : ∀ subscriber, Returns (act subscriber))
    {number : Nat} {change : Change} {others : List (Dispatch α)} (recipients : List α) {h : Hub α}
    (underway : h.underway = ⟨number, change, recipients⟩ :: others) :
    (∃ log, Run h log (HotReload.tellAll (fun s h => act s h.called) recipients h)) ∧
      (HotReload.tellAll (fun s h => act s h.called) recipients h).underway =
        ⟨number, change, []⟩ :: others := by
  induction recipients generalizing h with
  | nil => exact ⟨⟨[], .start⟩, underway⟩
  | cons subscriber recipients ih =>
    have told : h.called = { h with underway := ⟨number, change, recipients⟩ :: others } := by
      rw [called, underway]
    have first : Run h [.told number change subscriber] h.called := by
      rw [told]
      exact Run.start.step (@Step.tell _ _ [] _ _ _ _ _ underway)
    obtain ⟨⟨log, acts⟩, back⟩ := returns subscriber h.called
    obtain ⟨⟨log', more⟩, left⟩ := ih (h := act subscriber h.called) (by rw [back, told])
    exact ⟨⟨_, (first.trans acts).trans more⟩, left⟩

/-- **A report is a run** that leaves the other reports as they are.  So it can be what is done in a
call: reports nest to any depth. -/
theorem emit_returns {act : α → Hub α → Hub α} (returns : ∀ subscriber, Returns (act subscriber))
    (change : Change) : Returns (emit act change) := by
  intro h
  unfold emit
  cases heard : h.fanout.recipients? with
  | none => exact ⟨⟨[], .start⟩, rfl⟩
  | some recipients =>
    have begun := Run.start.step (.report change heard)
    obtain ⟨⟨log, calls⟩, left⟩ := Run.tellAll returns recipients
      (h := h.reporting change recipients) rfl
    have ended := (begun.trans calls).step (@Step.finish _ _ [] _ _ _ left)
    dsimp only
    rw [left]
    exact ⟨⟨_, ended⟩, rfl⟩

end Nested

end Hub

namespace Sample

open Hub

/-- The second file of a program is edited. -/
def news : Change := ⟨.modified, ⟨"/part"⟩⟩

/-- What is seen when the first of two subscribers takes both out as it is told, so that the source
is let go, and brings in a third one. -/
def upheaval : List (Hub.Note String) :=
  [.joined 0 "first", .joined 1 "second", .reported 0 news, .told 0 news "first", .left 1 true,
    .left 0 true, .joined 2 "third", .told 0 news "second", .finished 0]

/-- The hub after that. -/
def upheaved : Hub String where
  fanout :=
    { source := { isAttached := true, attaches := 2, detaches := 1 }
      subscribers := [(2, "third")]
      order := [2]
      nextId := 3
      isAttached := true }
  reports := 1

theorem upheaval_run : Run ({} : Hub String) upheaval upheaved := by
  have joined := (Run.start : Run ({} : Hub String) [] {})
    |>.step (.subscribe (show Fanout.subscribe _ "first" = _ from rfl))
    |>.step (.subscribe (show Fanout.subscribe _ "second" = _ from rfl))
  have upset := joined
    |>.step (.report news rfl)
    |>.step (@Step.tell _ _ [] [] _ _ _ _ rfl)
    |>.step (.unsubscribe 1)
    |>.step (.unsubscribe 0)
    |>.step (.subscribe (show Fanout.subscribe _ "third" = _ from rfl))
  exact upset
    |>.step (@Step.tell _ _ [] [] _ _ _ _ rfl)
    |>.step (@Step.finish _ _ [] [] _ _ rfl)

theorem upheaval_lawful : Lawful upheaval upheaved := upheaval_run.lawful

end Sample

end HotReload
