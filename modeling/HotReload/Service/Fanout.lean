import HotReload.Assoc
import HotReload.Module

/-!
# Fan-out of changes

A source of changes has room for one listener. A fan-out serves any number of subscribers over one
source: it attaches to the source for the first subscriber and detaches after the last one.

* `Source.attach`, `Source.detach`: how a source takes a listener and lets it go; both can be
  refused.
* `Fanout.subscribe`, `Fanout.unsubscribe`: how subscribers come and go.
* `Fanout.recipients?`: who is told of a change that the source reports now.
-/

namespace HotReload

/-! ### Sources -/

/-- A source of changes. -/
structure Source where
  /-- Whether a listener is there. -/
  isAttached : Bool := false
  /-- How often a listener came where none was. -/
  attaches : Nat := 0
  /-- How often a listener left. -/
  detaches : Nat := 0
  /-- Why the next listener will be refused. -/
  refusal : Option String := none
  /-- Whether the listener will not be let go the next time. -/
  isSticky : Bool := false
  deriving Inhabited

namespace Source

/-- Puts a listener in; where one is there already it is only replaced. Answers why it was
refused. -/
def attach (s : Source) : Option String × Source :=
  if s.isAttached then (none, s)
  else
    match s.refusal with
    | some reason => (some reason, { s with refusal := none })
    | none => (none, { s with isAttached := true, attaches := s.attaches + 1 })

/-- Takes the listener away, unless the source keeps it. -/
def detach (s : Source) : Source :=
  if s.isSticky then { s with isSticky := false }
  else if s.isAttached then { s with isAttached := false, detaches := s.detaches + 1 }
  else s

/-- What is said of a listener that was refused. -/
def refusalMessage (reason : String) : String := s!"Failed to attach file-change source: {reason}"

end Source

/-! ### Subscribers -/

/-- The number of a subscription. It stands for a number of 64 bits, and is one as long as there have
been fewer than 2 ^ 64 subscriptions. -/
abbrev SubscriberId := Nat

/-- The subscribers over one source. -/
structure Fanout (α : Type) where
  source : Source := {}
  /-- The subscribers by their numbers. -/
  subscribers : List (SubscriberId × α) := []
  /-- The numbers of the subscribers, in the order in which they came. -/
  order : List SubscriberId := []
  nextId : SubscriberId := 0
  /-- Whether the fan-out takes itself to be attached. -/
  isAttached : Bool := false
  deriving Inhabited

namespace Fanout

variable {α : Type}

/-- Registers a subscriber. -/
def register (f : Fanout α) (subscriber : α) : SubscriberId × Fanout α :=
  (f.nextId,
    { f with
      subscribers := Assoc.insert f.subscribers f.nextId subscriber
      order := f.order ++ [f.nextId]
      nextId := f.nextId + 1 })

/-- Adds a subscriber, attaching to the source first where that is still to be done. Where the
source refuses, its reason is answered and nobody is added. -/
def subscribe (f : Fanout α) (subscriber : α) : Except String SubscriberId × Fanout α :=
  if f.isAttached then
    let (id, f) := f.register subscriber
    (.ok id, f)
  else
    match f.source.attach with
    | (some reason, source) => (.error reason, { f with source })
    | (none, source) =>
      let (id, f) := { f with source, isAttached := true }.register subscriber
      (.ok id, f)

/-- Takes a subscriber away, and says whether it was there. After the last one the source is
detached; whether it lets go does not matter. -/
def unsubscribe (f : Fanout α) (id : SubscriberId) : Bool × Fanout α :=
  if Assoc.contains f.subscribers id then
    let f :=
      { f with
        subscribers := Assoc.erase f.subscribers id
        order := f.order.filter (· != id) }
    if f.subscribers.isEmpty && f.isAttached then
      (true, { f with isAttached := false, source := f.source.detach })
    else (true, f)
  else (false, f)

/-- The subscribers in the order in which they came. -/
def inOrder (f : Fanout α) : List α := f.order.filterMap (Assoc.get? f.subscribers)

/-- Who is told of a change that the source reports now; none where the source has no listener. -/
def recipients? (f : Fanout α) : Option (List α) :=
  if f.source.isAttached then some f.inOrder else none

end Fanout

/-- Tells each recipient in turn. What a recipient does in return does not change who is told. -/
def tellAll {α ω : Type} (tell : α → ω → ω) (recipients : List α) (world : ω) : ω :=
  recipients.foldl (fun world recipient => tell recipient world) world

end HotReload
