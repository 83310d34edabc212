import HotReload.Session.Connection

/-!
# Workers

A worker feeds the changes that concern one connection to it, one at a time and in the order in
which they came in. Changes that come in before the worker is started wait. A worker stops when its
client is gone, when its session is lost, or when nobody can send it changes any more and all are
dealt with.

* `Worker.enqueue`: hands a change in, where the worker still takes it.
* `Worker.step?`: the next step of a worker; none where it has stopped or waits.
-/

namespace HotReload

/-- Why a worker stopped. -/
inductive WorkerExit where
  /-- No more changes can come in. -/
  | drained
  /-- The client is gone. -/
  | disconnected
  /-- The entry file of the session is lost. -/
  | invalidated
  deriving DecidableEq, Inhabited

/-- Why a worker stops after a change was dealt with so; none where it goes on. -/
def Outcome.exit? : Outcome → Option WorkerExit
  | .invalidated => some .invalidated
  | .discarded => some .disconnected
  | _ => none

/-- A connection with the changes that wait for it. -/
structure Worker where
  connection : Connection
  queue : List Change := []
  /-- Whether anybody can hand changes in. -/
  isFed : Bool := true
  isStarted : Bool := false
  exit : Option WorkerExit := none
  deriving Inhabited

namespace Worker

/-- Lets something happen to the connection. -/
def onConnection (w : Worker) (f : Connection → Connection) : Worker :=
  { w with connection := f w.connection }

/-- Whether the worker takes changes. -/
def isListening (w : Worker) : Bool := w.isFed && w.exit.isNone

/-- Hands a change in, and says whether it was taken. -/
def enqueue (w : Worker) (change : Change) : Worker × Bool :=
  if w.isListening then ({ w with queue := w.queue ++ [change] }, true) else (w, false)

/-- Lets the worker know that its client is taken out: nobody can hand changes in any more. -/
def part (w : Worker) : Worker :=
  { w with isFed := false }.onConnection fun c => { c with isAlive := false }

/-- Stops the worker; what still waits is dropped. -/
def stop (w : Worker) (exit : WorkerExit) : Worker := { w with exit := some exit, queue := [] }

/-- Takes a step of the connection into the worker; some outcomes stop it. -/
def absorb (w : Worker) (moved : Connection.Moved) : Worker :=
  let w := { w with connection := moved.1 }
  match moved.2.bind Outcome.exit? with
  | some exit => w.stop exit
  | none => w

/-- What a worker that stopped told whoever started it; one that ran dry tells nothing. -/
def farewell? (w : Worker) : Option WorkerExit := w.exit.filter (· ≠ .drained)

/-- One step of a worker; none where it has not been started, has stopped, waits for a build or
waits for changes. -/
def step? {σ : Type} (r : Resolver σ) (w : Worker) (st : σ) : Option (Worker × σ) :=
  if !w.isStarted || w.exit.isSome then none
  else if w.connection.cycle.isSome then
    (w.connection.step? r st).map fun (moved, st) => (w.absorb moved, st)
  else
    match w.queue with
    | change :: queue => some ({ w with queue }.absorb (w.connection.handle change), st)
    | [] => if w.isFed then none else some (w.stop .drained, st)

/-- Takes steps until none is possible; `fuel` bounds their number. -/
def run {σ : Type} (r : Resolver σ) : Nat → Worker → σ → Worker × σ
  | 0, w, st => (w, st)
  | fuel + 1, w, st =>
    match w.step? r st with
    | none => (w, st)
    | some (w, st) => run r fuel w st

/-- A bound on the steps of a worker, where a discovery asks at most `bound` questions: besides what
it does already, each waiting change takes a look, a lookup, a discovery, an order and a
delivery. -/
def stepBound (bound : Nat) (w : Worker) : Nat := (w.queue.length + 1) * (bound + 4) + 1

/-- Goes on until the worker waits. -/
def settle {σ : Type} (r : Resolver σ) (w : Worker) (st : σ) : Worker × σ :=
  w.run r (w.stepBound (r.bound st)) st

end Worker

end HotReload
