import HotReload.Service.Fanout
import HotReload.Session.Basic

/-!
# The store of sessions

The store registers a session under a connection number together with its subscription to changes.
A session is registered only after its graph has been discovered, so no change reaches it before.

* `Store.register`: takes a session in, given what its discovery brought.
* `Store.unregister`: takes it out again together with its subscription.
-/

namespace HotReload

/-- A registered session. -/
structure Registration (β : Type) where
  subscription : SubscriberId
  session : β
  deriving Inhabited

/-- The registered sessions, over subscribers `α`. -/
structure Store (α β : Type) where
  fanout : Fanout α := {}
  /-- The registered sessions by connection, ascending. -/
  entries : List (ConnectionId × Registration β) := []
  /-- The number of the next connection. -/
  nextId : ConnectionId := 1
  deriving Inhabited

namespace Store

variable {α β : Type}

/-- Registers a session with what the discovery of its graph brought. A fault of the discovery, or
the source's refusal, is answered and nothing is registered; a number is used up by every graph. -/
def register (s : Store α β) (seed : Except ResolveFault Graph) (subscriber : ConnectionId → α)
    (session : ConnectionId → Graph → β) : Except UpdateFault ConnectionId × Store α β :=
  match seed with
  | .error fault => (.error (.ofResolve fault), s)
  | .ok graph =>
    let id := s.nextId
    match s.fanout.subscribe (subscriber id) with
    | (.error reason, fanout) =>
      (.error (.internal (Source.refusalMessage reason)), { s with fanout, nextId := id + 1 })
    | (.ok subscription, fanout) =>
      (.ok id,
        { fanout
          entries := s.entries ++ [(id, ⟨subscription, session id graph⟩)]
          nextId := id + 1 })

/-- Takes a session out, and says whether it was there. -/
def unregister (s : Store α β) (id : ConnectionId) : Bool × Store α β :=
  match Assoc.get? s.entries id with
  | none => (false, s)
  | some entry =>
    (true,
      { s with
        entries := Assoc.erase s.entries id
        fanout := (s.fanout.unsubscribe entry.subscription).2 })

/-- Whether a session is registered. -/
def contains (s : Store α β) (id : ConnectionId) : Bool := Assoc.contains s.entries id

/-- The session of a connection. -/
def session? (s : Store α β) (id : ConnectionId) : Option β :=
  (Assoc.get? s.entries id).map (·.session)

/-- The numbers of the registered sessions, ascending. -/
def ids (s : Store α β) : List ConnectionId := s.entries.map (·.1)

end Store

end HotReload
