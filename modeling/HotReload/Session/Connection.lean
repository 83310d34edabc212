import HotReload.Session.Reaction

/-!
# Connections

A connection carries the changes of one session to its client. A change that concerns the session
opens a cycle: `update-start` is sent, the reaction is found, what is to be rebuilt is ordered and
built, and the cycle ends with at most one `update` or `error` and with `update-done`. A client that
is gone is sent nothing more.

A cycle waits for the resolver between its parts, and meanwhile the client may leave.

* `Connection.handle`: takes up a change.
* `Connection.step?`: lets a cycle go on as far as its next question.
* `Connection.run`: takes up a change and goes on to the end of its cycle.
-/

namespace HotReload

/-! ### Sinks -/

/-- Where the messages to a client go. -/
structure Sink where
  /-- The messages accepted so far. -/
  accepted : List Message := []
  isOpen : Bool := true
  /-- The number of accepted messages with which the sink closes by itself. -/
  limit : Option Nat := none
  deriving Inhabited

namespace Sink

/-- Hands a message to the client; none where the sink is closed. -/
def accept? (s : Sink) (m : Message) : Option Sink :=
  if s.isOpen then
    let accepted := s.accepted ++ [m]
    some { s with accepted, isOpen := !s.limit.any (· ≤ accepted.length) }
  else none

/-- Closes the sink. -/
def close (s : Sink) : Sink := { s with isOpen := false }

/-- Lets the sink close by itself after `n` more messages; the first one is always accepted. -/
def closeAfter (s : Sink) (n : Nat) : Sink := { s with limit := some (s.accepted.length + n) }

end Sink

/-! ### Connections -/

/-- What a connection is doing. -/
inductive Phase where
  | idle
  /-- `update-start` is sent, and the reaction or the build is not there yet. -/
  | awaiting
  /-- The result of a cycle is being sent. -/
  | sending
  /-- The client is gone or its entry file is lost. -/
  | closed
  deriving DecidableEq, Inhabited

/-- What came of a change. -/
inductive Outcome where
  /-- The change does not concern the session; nothing was sent. -/
  | skipped
  /-- An update with so many modules was sent. -/
  | updated (modules : Nat)
  /-- There was nothing to update. -/
  | unchanged
  /-- An error was sent. -/
  | failed
  /-- The client is gone. -/
  | discarded
  /-- The entry file is lost; an error was sent, the last message of this connection. -/
  | invalidated
  deriving DecidableEq, Inhabited

/-- A cycle that waits for the resolver. -/
inductive Cycle where
  /-- The reaction to a change is being found. -/
  | probing (change : Change) (probe : Probe)
  /-- A build is about to be ordered. -/
  | ordering (job : BuildJob)
  /-- A build is ordered and not delivered yet. -/
  | building (job : BuildJob)
  deriving Inhabited

/-- The link between a session and its client. -/
structure Connection where
  session : Session
  /-- The address that the client is told to load code from. -/
  endpoint : Endpoint
  /-- Whether the client is still registered. -/
  isAlive : Bool := true
  sink : Sink := {}
  phase : Phase := .idle
  cycle : Option Cycle := none
  deriving Inhabited

namespace Connection

/-- How a step of a connection ends: with an outcome where the change has been dealt with. -/
abbrev Moved := Connection × Option Outcome

/-- Whether the client is gone. -/
def isGone (c : Connection) : Bool := !c.isAlive || !c.sink.isOpen

/-- Ends a cycle with an outcome. -/
def finish (c : Connection) (phase : Phase) (outcome : Outcome) : Moved :=
  ({ c with phase, cycle := none }, some outcome)

/-- Gives the change up, as the client is gone. -/
def discard (c : Connection) : Moved := c.finish .closed .discarded

/-- Sends a message and goes on; gives the change up where the client does not take it. -/
def send (c : Connection) (m : Message) (next : Connection → Moved) : Moved :=
  match c.sink.accept? m with
  | none => c.discard
  | some sink => next { c with sink }

/-- Sends `update-done` and ends the cycle. -/
def complete (c : Connection) (phase : Phase) (outcome : Outcome) : Moved :=
  c.send .updateDone (·.finish phase outcome)

/-- Sends the result of a cycle. A lost entry file ends the session. -/
def conclude (c : Connection) (result : Except UpdateFault (Option Payload)) : Moved :=
  if c.isGone then c.discard
  else
    let c := { c with phase := .sending }
    match result with
    | .ok none => c.complete .idle .unchanged
    | .ok (some payload) =>
      c.send (.update payload) (·.complete .idle (.updated payload.modules.length))
    | .error fault =>
      let report := Message.error (Report.ofFault fault)
      if fault.isEntryLost then
        let c := { c with session := { c.session with active := false } }
        c.send report (·.complete .closed .invalidated)
      else c.send report (·.complete .idle .failed)

/-- Acts on a reaction: a deletion is sent at once, a rebuild is to be ordered. -/
def act (c : Connection) (reaction : Reaction) : Moved :=
  match reaction with
  | .irrelevant => c.conclude (.ok none)
  | .deleted m => c.conclude (.ok (some (Payload.deletion m.id c.session.graph.inverse)))
  | .rebuild modules =>
    match c.session.jobFor? c.endpoint modules with
    | none => c.conclude (.ok none)
    | some job => ({ c with cycle := some (.ordering job) }, none)

/-- Goes on with the reaction to a change. From the moment it is found the session has the graph
that it brought. -/
def advance (c : Connection) (change : Change) (progress : Progress) : Moved :=
  match progress with
  | .probing probe => ({ c with cycle := some (.probing change probe) }, none)
  | .settled (.error fault) => c.conclude (.error fault)
  | .settled (.ok (graph, reaction)) => { c with session := { c.session with graph } }.act reaction

/-- Takes up a change. -/
def handle (c : Connection) (change : Change) : Moved :=
  if c.phase = .closed ∨ c.isGone ∨ !c.session.active then c.discard
  else if !c.session.isRelevant change then (c, some .skipped)
  else
    { c with phase := .awaiting }.send .updateStart fun c =>
      c.advance change (Progress.start c.session change)

/-- Goes on with what was built. -/
def receive (c : Connection) (answer : Except ResolveFault (List BuiltModule)) : Moved :=
  match answer with
  | .error fault => c.conclude (.error (.ofResolve fault))
  | .ok built => c.conclude (.ok (c.session.updateFor built))

/-- One step of a cycle; none where there is no cycle, or where it waits for a build. -/
def step? {σ : Type} (r : Resolver σ) (c : Connection) (st : σ) : Option (Moved × σ) :=
  match c.cycle with
  | none => none
  | some (.probing change probe) =>
    let (progress, st) := (probe.next c.session change).answer r st
    some (c.advance change progress, st)
  | some (.ordering job) => some (({ c with cycle := some (.building job) }, none), r.order job st)
  | some (.building job) =>
    match r.deliver job st with
    | (none, _) => none
    | (some answer, st) => some (c.receive answer, st)

/-- Takes steps until there is an outcome, or none is possible; `fuel` bounds their number. -/
def settle {σ : Type} (r : Resolver σ) : Nat → Moved → σ → Moved × σ
  | 0, moved, st => (moved, st)
  | fuel + 1, moved, st =>
    match moved with
    | (c, some outcome) => ((c, some outcome), st)
    | (c, none) =>
      match c.step? r st with
      | none => ((c, none), st)
      | some (moved, st) => settle r fuel moved st

/-- Takes up a change and goes on to the end of its cycle. -/
def run {σ : Type} (r : Resolver σ) (c : Connection) (change : Change) (st : σ) : Moved × σ :=
  settle r (r.bound st + 4) (c.handle change) st

end Connection

end HotReload
