import HotReload.Service.Store
import HotReload.Session.Worker
import HotReload.Settings

/-!
# The service

The service ties sessions, their workers and the source of changes together. A client that connects
gets a session, a subscription and a worker; a change that the source reports is handed to every
subscribed worker; a worker that stops takes its session out of the service.

Workers do not know of each other: `Service.step?` lets one of them take one step, in any order the
environment likes, and `Service.settle` lets each go on until it waits.

* `Service.connect`, `Service.disconnect`: how clients come and go.
* `Service.emit`: a change that the source reports.
-/

namespace HotReload

/-- The service, with the worker of every client that ever connected. -/
structure Service where
  endpoint : Endpoint := {}
  store : Store ConnectionId Unit := {}
  /-- The workers by connection, ascending; those that have stopped are kept. -/
  workers : List (ConnectionId × Worker) := []
  deriving Inhabited

namespace Service

/-- The worker of a connection. -/
def worker? (s : Service) (id : ConnectionId) : Option Worker := Assoc.get? s.workers id

/-- Lets something happen to the worker of a connection. -/
def onWorker (s : Service) (id : ConnectionId) (f : Worker → Worker) : Service :=
  { s with workers := Assoc.modify s.workers id f }

/-! ### Clients -/

/-- Takes a client in, given what the discovery of its graph brought. Its worker is not started
yet. -/
def enrol (s : Service) (platform : String) (entry : Path) (sink : Sink)
    (seed : Except ResolveFault Graph) : Except UpdateFault ConnectionId × Service :=
  match s.store.register seed id (fun _ _ => ()), seed with
  | (.ok id, store), .ok graph =>
    let session : Session := { connection := id, platform, entry, graph }
    let worker : Worker := { connection := { session, endpoint := s.endpoint, sink } }
    (.ok id, { s with store, workers := s.workers ++ [(id, worker)] })
  | (answer, store), _ => (answer, { s with store })

/-- Starts the worker of a connection. -/
def start (s : Service) (id : ConnectionId) : Service :=
  s.onWorker id fun w => { w with isStarted := true }

/-- Connects a client: discovers its graph, takes it in and starts its worker. -/
def connect {σ : Type} (r : Resolver σ) (s : Service) (platform : String) (entry : Path)
    (sink : Sink) (st : σ) : Except UpdateFault ConnectionId × Service × σ :=
  let (seed, st) := Search.discover r platform entry st
  match s.enrol platform entry sink seed with
  | (.ok id, s) => (.ok id, s.start id, st)
  | (.error fault, s) => (.error fault, s, st)

/-- Takes a client out, and says whether it was there. A cycle that is under way finds its client
gone. -/
def disconnect (s : Service) (id : ConnectionId) : Bool × Service :=
  match s.store.unregister id with
  | (false, _) => (false, s)
  | (true, store) => (true, { s with store }.onWorker id Worker.part)

/-- Lets something happen to the sink of a client. -/
def onSink (s : Service) (id : ConnectionId) (f : Sink → Sink) : Service :=
  s.onWorker id fun w => w.onConnection fun c => { c with sink := f c.sink }

/-- The service with another source of changes. -/
def withSource (s : Service) (source : Source) : Service :=
  { s with store := { s.store with fanout := { s.store.fanout with source } } }

/-! ### Changes -/

/-- Hands a change to one worker. -/
def hand (change : Change) (id : ConnectionId) (s : Service) : Service :=
  s.onWorker id fun w => (w.enqueue change).1

/-- Hands a change that the source reports to all subscribers, and says whether the source had a
listener. -/
def emit (s : Service) (change : Change) : Bool × Service :=
  match s.store.fanout.recipients? with
  | none => (false, s)
  | some ids => (true, tellAll (hand change) ids s)

/-! ### Progress -/

/-- What is done when a worker tells why it stopped: its session is taken out of the service. -/
def onFarewell (s : Service) (id : ConnectionId) (_exit : WorkerExit) : Service :=
  (s.disconnect id).2

/-- One step of the worker of a connection; a worker that stops because its client is gone or its
session is lost takes its session out of the service. -/
def step? {σ : Type} (r : Resolver σ) (s : Service) (id : ConnectionId) (st : σ) :
    Option (Service × σ) :=
  match s.worker? id with
  | none => none
  | some w =>
    match w.step? r st with
    | none => none
    | some (w, st) =>
      let s := s.onWorker id fun _ => w
      some (w.farewell?.elim s (s.onFarewell id), st)

/-- Lets one worker go on until it waits; `fuel` bounds the number of its steps. -/
def run {σ : Type} (r : Resolver σ) (id : ConnectionId) : Nat → Service → σ → Service × σ
  | 0, s, st => (s, st)
  | fuel + 1, s, st =>
    match s.step? r id st with
    | none => (s, st)
    | some (s, st) => run r id fuel s st

/-- Lets every worker go on until it waits, one after the other. -/
def settle {σ : Type} (r : Resolver σ) (s : Service) (st : σ) : Service × σ :=
  s.workers.foldl (fun (s, st) (id, w) => s.run r id (w.stepBound (r.bound st)) st) (s, st)

/-! ### Views -/

/-- The registered session of a connection. -/
def session? (s : Service) (id : ConnectionId) : Option Session :=
  if s.store.contains id then (s.worker? id).map (·.connection.session) else none

/-- The messages that the client of a connection was sent. -/
def messagesOf (s : Service) (id : ConnectionId) : List Message :=
  ((s.worker? id).map (·.connection.sink.accepted)).getD []

/-- What the service says of itself. -/
def status (s : Service) : Status :=
  ⟨s.store.entries.length.toUInt64, s.store.fanout.isAttached⟩

end Service

end HotReload
