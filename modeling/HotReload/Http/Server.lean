import HotReload.Http.Handshake
import HotReload.Service.Basic

/-!
# The server

The server answers `GET /status` with what the service says of itself, and turns `GET /hot` into a
WebSocket on which a client gets its messages. A socket writes what the sink of its connection
accepted, one frame for each message and in order, and remembers how many it has written.

The loop of a socket takes up whatever is there: a message to be written (`Server.forward?`) or
something that the client sent (`Server.receive`). It is left when the client goes away, when a frame
cannot be written (`Server.falter?`), or when all is written and nobody is left to send more; then
the connection is taken out of the service.

* `Server.answer`: what a request is answered, and what it changes.
* `Server.settle`: lets the service and then the sockets go on until they wait.
-/

namespace HotReload.Http

/-! ### Sockets -/

/-- What is written to a client. -/
inductive Frame where
  | text (text : String)
  /-- The answer to a ping, with the ping's payload. -/
  | pong (payload : String)
  | close
  deriving DecidableEq, Inhabited

/-- What a client sends. -/
inductive Incoming where
  /-- Something that nobody waits for. -/
  | note
  | ping (payload : String)
  | close
  /-- The client is gone. -/
  | lost
  deriving DecidableEq, Inhabited

/-- The WebSocket of a connection. -/
structure Socket where
  /-- How many of the messages that were accepted have been written. -/
  forwarded : Nat := 0
  /-- The frames written so far. -/
  written : List Frame := []
  isOpen : Bool := true
  deriving Inhabited

/-- Writes a frame. -/
def Socket.write (k : Socket) (frame : Frame) : Socket := { k with written := k.written ++ [frame] }

/-! ### The server and its sockets -/

/-- The server. -/
structure Server where
  /-- The root of the project that is served. -/
  root : Path
  service : Service
  /-- The sockets by connection, ascending; those that are closed are kept. -/
  sockets : List (ConnectionId × Socket) := []
  deriving Inhabited

/-- What a request is answered: a response, or a WebSocket for a connection. -/
inductive Answer where
  | response (response : Response)
  /-- The connection is a WebSocket from now on. -/
  | upgraded (connection : ConnectionId) (accept : String)
  deriving Inhabited

namespace Server

/-- Changes the socket of a connection. -/
def onSocket (s : Server) (id : ConnectionId) (f : Socket → Socket) : Server :=
  { s with sockets := Assoc.modify s.sockets id f }

/-- The messages that were accepted for a connection and not written to its socket. -/
def pending (s : Server) (id : ConnectionId) (k : Socket) : List Message :=
  (s.service.messagesOf id).drop k.forwarded

/-- Whether anybody is left who may send to a connection. -/
def isFed (s : Server) (id : ConnectionId) : Bool :=
  match s.service.worker? id with
  | some w => w.exit.isNone
  | none => false

/-- Leaves the loop of a socket: nobody reads on, and the connection is taken out of the service. -/
def leave (s : Server) (id : ConnectionId) : Server :=
  { s.onSocket id (fun k => { k with isOpen := false }) with
    service := ((s.service.onSink id Sink.close).disconnect id).2 }

/-- Writes the next message of a socket, or ends it where all is written and nobody is left to send
more; none where the socket is closed or has to wait. -/
def forward? (s : Server) (id : ConnectionId) : Option Server :=
  match Assoc.get? s.sockets id with
  | none => none
  | some k =>
    if !k.isOpen then none
    else
      match s.pending id k with
      | m :: _ =>
        some (s.onSocket id fun k => { k.write (.text m.wire) with forwarded := k.forwarded + 1 })
      | [] => if s.isFed id then none else some ((s.onSocket id (·.write .close)).leave id)

/-- Fails to write the next frame of a socket, which ends it; none where the socket is closed or has
nothing to write. -/
def falter? (s : Server) (id : ConnectionId) : Option Server :=
  match Assoc.get? s.sockets id with
  | none => none
  | some k =>
    if k.isOpen && (!(s.pending id k).isEmpty || !s.isFed id) then some (s.leave id) else none

/-- Takes up what a client sent. -/
def receive (s : Server) (id : ConnectionId) (incoming : Incoming) : Server :=
  match Assoc.get? s.sockets id with
  | none => s
  | some k =>
    if !k.isOpen then s
    else
      match incoming with
      | .note => s
      | .ping payload => s.onSocket id (·.write (.pong payload))
      | .close | .lost => s.leave id

/-- Lets a socket write until it waits; `fuel` bounds the number of frames. -/
def flush (id : ConnectionId) : Nat → Server → Server
  | 0, s => s
  | fuel + 1, s =>
    match s.forward? id with
    | none => s
    | some s => flush id fuel s

/-- Lets the service and then the sockets go on until they wait. -/
def settle {σ : Type} (r : Resolver σ) (s : Server) (st : σ) : Server × σ :=
  let (service, st) := s.service.settle r st
  let flushed := s.sockets.foldl (fun s (id, k) => s.flush id ((s.pending id k).length + 1))
    { s with service }
  (flushed, st)

/-! ### Requests -/

/-- The status of a request whose client cannot be connected. -/
def statusOf : UpdateFault → Nat
  | .missing _ | .entryLost _ => 404
  | .unresolved _ _ _ | .transform _ _ _ => 400
  | .internal _ => 500

/-- Connects the client of a request and opens its socket. -/
def openSocket {σ : Type} (r : Resolver σ) (s : Server) (key platform : String) (entry : Path)
    (st : σ) : Answer × Server × σ :=
  match s.service.connect r platform entry {} st with
  | (.ok id, service, st) =>
    let s := { s with service, sockets := s.sockets ++ [(id, {})] }
    (.upgraded id (Handshake.accept key), s, st)
  | (.error fault, service, st) =>
    (.response (.text (statusOf fault) fault.message), { s with service }, st)

/-- Answers a request for updates: it has to open a WebSocket, to name platform and entry file, and
the entry file has to lie in the root. -/
def hot {σ : Type} (r : Resolver σ) (s : Server) (request : Request) (st : σ) :
    Answer × Server × σ :=
  match Handshake.key request, Handshake.wanted request with
  | .error response, _ | .ok _, .error response => (.response response, s, st)
  | .ok key, .ok (platform, name) =>
    match entryFile? s.root name with
    | none => (.response (.text 403 "bundleEntry must point inside the project root"), s, st)
    | some entry => s.openSocket r key platform entry st

/-- Answers a request whose method reads. -/
def read {σ : Type} (r : Resolver σ) (s : Server) (request : Request) (st : σ) :
    Answer × Server × σ :=
  match request.target.path with
  | "/hot" => s.hot r request st
  | "/status" => (.response (.json s.service.status.toJson.render), s, st)
  | _ => (.response .notFound, s, st)

/-- Whether a path leads anywhere. -/
def isServed (path : String) : Bool := path = "/hot" || path = "/status"

/-- The answer without its text. -/
def withoutBody : Answer → Answer
  | .response response => .response response.withoutBody
  | answer => answer

/-- Answers a request. -/
def answer {σ : Type} (r : Resolver σ) (s : Server) (request : Request) (st : σ) :
    Answer × Server × σ :=
  match request.method with
  | "GET" => s.read r request st
  | "HEAD" =>
    let (answer, s, st) := s.read r request st
    (withoutBody answer, s, st)
  | "OPTIONS" => (.response .preflight, s, st)
  | _ =>
    (.response (if isServed request.target.path then .methodNotAllowed else .notFound), s, st)

end Server

end HotReload.Http
