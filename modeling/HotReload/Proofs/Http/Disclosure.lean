import HotReload.Http.Server
import HotReload.Proofs.Service.Refusal

/-!
# What a server discloses of its internal faults

The text of an internal fault is for the server's log.  Two runs of a server that differ in such
texts alone write the same frames and send the same messages, and they answer every request alike
but for one: a client that cannot be connected because of an internal fault is answered with its
text.

* `Act`, `Server.play`: what can happen to a server, in any order.
* `Server.goes_settle`: what a server does when it settles is among it.
* `Server.play_alike`: two runs that differ in the texts of internal faults.
* `Sample.refusal_discloses`: the answer in which such a text is found.
-/

namespace HotReload.Http

/-- What can happen to a server. -/
inductive Act (σ : Type) where
  | request (request : Request)
  /-- A client sends something on its socket. -/
  | receive (id : ConnectionId) (incoming : Incoming)
  /-- A socket writes what is next, where there is anything. -/
  | forward (id : ConnectionId)
  /-- The worker of a connection takes a step, where it can. -/
  | work (id : ConnectionId)
  /-- The source reports a change. -/
  | emit (change : Change)
  /-- A client is taken out of the service. -/
  | disconnect (id : ConnectionId)
  /-- The source will refuse the next listener. -/
  | refuse (reason : String)
  /-- The source will not let its listener go the next time. -/
  | cling
  /-- The files change. -/
  | edit (st : σ)

/-- The same happens to two servers, but for the reason of a refusal and the texts of internal
faults. -/
inductive Act.Alike {σ σ' : Type} (R : σ → σ' → Prop) : Act σ → Act σ' → Prop where
  | request (request : Request) : Alike R (.request request) (.request request)
  | receive (id : ConnectionId) (incoming : Incoming) :
      Alike R (.receive id incoming) (.receive id incoming)
  | forward (id : ConnectionId) : Alike R (.forward id) (.forward id)
  | work (id : ConnectionId) : Alike R (.work id) (.work id)
  | emit (change : Change) : Alike R (.emit change) (.emit change)
  | disconnect (id : ConnectionId) : Alike R (.disconnect id) (.disconnect id)
  | refuse (reason reason' : String) : Alike R (.refuse reason) (.refuse reason')
  | cling : Alike R .cling .cling
  | edit {st : σ} {st' : σ'} (h : R st st') : Alike R (.edit st) (.edit st')

/-- Two answers are the same, or both tell a client that it cannot be connected because of an
internal fault. -/
inductive Answer.Alike : Answer → Answer → Prop where
  | same (answer : Answer) : Alike answer answer
  | internal (text text' : String) :
      Alike (.response (.text 500 (UpdateFault.internal text).message))
        (.response (.text 500 (UpdateFault.internal text').message))

theorem Answer.Alike.withoutBody {answer answer' : Answer} (h : answer.Alike answer') :
    (Server.withoutBody answer).Alike (Server.withoutBody answer') := by
  cases h with
  | same answer => exact .same _
  | internal text text' => exact .same _

namespace Server

/-! ### Playing -/

/-- Lets something happen to a server; what is answered comes with it. -/
def act {σ : Type} (r : Resolver σ) (s : Server) (st : σ) : Act σ → List Answer × Server × σ
  | .request request =>
    let (answer, s, st) := s.answer r request st
    ([answer], s, st)
  | .receive id incoming => ([], s.receive id incoming, st)
  | .forward id => ([], (s.forward? id).getD s, st)
  | .work id =>
    let (service, st) := (s.service.step? r id st).getD (s.service, st)
    ([], { s with service }, st)
  | .emit change => ([], { s with service := (s.service.emit change).2 }, st)
  | .disconnect id => ([], { s with service := (s.service.disconnect id).2 }, st)
  | .refuse reason =>
    let source := { s.service.store.fanout.source with refusal := some reason }
    ([], { s with service := s.service.withSource source }, st)
  | .cling =>
    let source := { s.service.store.fanout.source with isSticky := true }
    ([], { s with service := s.service.withSource source }, st)
  | .edit st => ([], s, st)

/-- Lets one thing after the other happen to a server. -/
def play {σ : Type} (r : Resolver σ) : List (Act σ) → Server → σ → List Answer × Server × σ
  | [], s, st => ([], s, st)
  | act :: acts, s, st =>
    let (answers, s, st) := s.act r st act
    let (more, s, st) := play r acts s st
    (answers ++ more, s, st)

theorem play_append {σ : Type} (r : Resolver σ) (acts acts' : List (Act σ)) (s : Server) (st : σ) :
    s.play r (acts ++ acts') st =
      ((s.play r acts st).1 ++
          ((s.play r acts st).2.1.play r acts' (s.play r acts st).2.2).1,
        ((s.play r acts st).2.1.play r acts' (s.play r acts st).2.2).2) := by
  induction acts generalizing s st with
  | nil => rfl
  | cons act acts ih =>
    simp only [List.cons_append, play, ih, List.append_assoc]

/-- A server comes from one state to another, and answers nothing on the way. -/
def Goes {σ : Type} (r : Resolver σ) (s : Server) (st : σ) (s' : Server) (st' : σ) : Prop :=
  ∃ acts, s.play r acts st = ([], s', st')

theorem Goes.trans {σ : Type} {r : Resolver σ} {s s₁ s₂ : Server} {st st₁ st₂ : σ}
    (h : Goes r s st s₁ st₁) (h' : Goes r s₁ st₁ s₂ st₂) : Goes r s st s₂ st₂ := by
  obtain ⟨acts, h⟩ := h
  obtain ⟨acts', h'⟩ := h'
  refine ⟨acts ++ acts', ?_⟩
  simp only [play_append, h, h', List.append_nil]

/-- The workers of the service go on. -/
theorem goes_service {σ : Type} {r : Resolver σ} (s : Server) {service service' : Service}
    {st st' : σ} (h : service.Goes r st service' st') :
    Goes r { s with service } st { s with service := service' } st' := by
  induction h with
  | refl => exact ⟨[], rfl⟩
  | @step service service₁ _ st st₁ _ id h _ ih =>
    have first : Goes r { s with service } st { s with service := service₁ } st₁ :=
      ⟨[.work id], by simp only [play, act, h, Option.getD_some, List.append_nil]⟩
    exact first.trans ih

theorem goes_flush {σ : Type} (r : Resolver σ) (id : ConnectionId) (fuel : Nat) (s : Server)
    (st : σ) : Goes r s st (s.flush id fuel) st := by
  induction fuel generalizing s with
  | zero => exact ⟨[], rfl⟩
  | succ fuel ih =>
    unfold flush
    cases h : s.forward? id with
    | none => exact ⟨[], rfl⟩
    | some s₁ =>
      have first : Goes r s st s₁ st :=
        ⟨[.forward id], by simp only [play, act, h, Option.getD_some, List.append_nil]⟩
      exact first.trans (ih s₁)

theorem goes_flushes {σ : Type} (r : Resolver σ) (sockets : List (ConnectionId × Socket))
    (s : Server) (st : σ) :
    Goes r s st (sockets.foldl (fun s (id, k) => s.flush id ((s.pending id k).length + 1)) s)
      st := by
  induction sockets generalizing s with
  | nil => exact ⟨[], rfl⟩
  | cons e sockets ih =>
    exact (goes_flush r e.1 ((s.pending e.1 e.2).length + 1) s st).trans (ih _)

/-- **To settle is to play**: the workers go on, and then the sockets write. -/
theorem goes_settle {σ : Type} (r : Resolver σ) (s : Server) (st : σ) :
    Goes r s st (s.settle r st).1 (s.settle r st).2 :=
  (goes_service s (Service.goes_settle r s.service st)).trans (goes_flushes r s.sockets _ _)

/-! ### Two servers -/

/-- The servers differ at most in the reason for which the source will refuse the next listener. -/
inductive Alike (s : Server) : Server → Prop where
  | mk {service : Service} (h : s.service.Alike service) : Alike s { s with service }

namespace Alike

variable {s s' : Server}

theorem refl (s : Server) : s.Alike s := .mk (.refl s.service)

theorem sockets (a : s.Alike s') : s'.sockets = s.sockets := by
  cases a
  rfl

theorem messagesOf (a : s.Alike s') (id : ConnectionId) :
    s'.service.messagesOf id = s.service.messagesOf id := by
  obtain ⟨h⟩ := a
  rw [Service.messagesOf, Service.messagesOf, h.worker?]

theorem onSocket (a : s.Alike s') (id : ConnectionId) (f : Socket → Socket) :
    (s.onSocket id f).Alike (s'.onSocket id f) := by
  obtain ⟨h⟩ := a
  exact .mk h

theorem leave (a : s.Alike s') (id : ConnectionId) : (s.leave id).Alike (s'.leave id) := by
  obtain ⟨h⟩ := a
  exact .mk ((h.onWorker id _).disconnect id).2

theorem receive (a : s.Alike s') (id : ConnectionId) (incoming : Incoming) :
    (s.receive id incoming).Alike (s'.receive id incoming) := by
  unfold Server.receive
  rw [a.sockets]
  cases Assoc.get? s.sockets id with
  | none => exact a
  | some k =>
    simp only
    split
    · exact a
    · cases incoming with
      | note => exact a
      | ping payload => exact a.onSocket id _
      | close => exact a.leave id
      | lost => exact a.leave id

theorem forward (a : s.Alike s') (id : ConnectionId) :
    ((s.forward? id).getD s).Alike ((s'.forward? id).getD s') := by
  have pending : ∀ k, s'.pending id k = s.pending id k := fun k => by
    rw [pending, pending, a.messagesOf]
  have fed : s'.isFed id = s.isFed id := by
    obtain ⟨h⟩ := a
    rw [isFed, isFed, h.worker?]
  unfold Server.forward?
  rw [a.sockets, fed]
  cases Assoc.get? s.sockets id with
  | none => exact a
  | some k =>
    simp only [pending]
    split
    · exact a
    · split
      · exact a.onSocket id _
      · split
        · exact a
        · exact (a.onSocket id _).leave id

variable {σ σ' : Type} {r : Resolver σ} {r' : Resolver σ'} {R : σ → σ' → Prop} {st : σ} {st' : σ'}

/-- Two servers have answered alike, and are alike still. -/
structure Both (R : σ → σ' → Prop) (x : Answer × Server × σ) (x' : Answer × Server × σ') :
    Prop where
  answer : x.1.Alike x'.1
  server : x.2.1.Alike x'.2.1
  files : R x.2.2 x'.2.2

/-- **Opening a socket**: only here does the text of an internal fault come out. -/
theorem openSocket (a : s.Alike s') (m : r.Matches r' R) (h : R st st') (key platform : String)
    (entry : Path) :
    Both R (s.openSocket r key platform entry st) (s'.openSocket r' key platform entry st') := by
  obtain ⟨hs⟩ := a
  obtain ⟨answer, h₁, hst⟩ := hs.connect m h platform entry {}
  unfold Server.openSocket
  simp only
  generalize s.service.connect r platform entry {} st = done at answer h₁ hst ⊢
  generalize Service.connect r' _ platform entry {} st' = done' at answer h₁ hst ⊢
  obtain ⟨fault | id, s₁, st₁⟩ := done <;> obtain ⟨fault' | id', s₁', st₁'⟩ := done'
  · refine ⟨?_, .mk h₁, hst⟩
    have same := Except.error.inj answer
    cases fault <;> cases fault' <;> cases same
    case internal.internal.refl text text' => exact .internal text text'
    all_goals exact .same _
  · cases answer
  · cases answer
  · obtain rfl : id' = id := Except.ok.inj answer
    exact ⟨.same _, .mk h₁, hst⟩

theorem hot (a : s.Alike s') (m : r.Matches r' R) (h : R st st') (request : Request) :
    Both R (s.hot r request st) (s'.hot r' request st') := by
  have root : s'.root = s.root := by
    cases a
    rfl
  unfold Server.hot
  rw [root]
  cases Handshake.key request with
  | error response => exact ⟨.same _, a, h⟩
  | ok key =>
    rcases Handshake.wanted request with response | ⟨platform, name⟩
    · exact ⟨.same _, a, h⟩
    · simp only
      cases entryFile? s.root name with
      | none => exact ⟨.same _, a, h⟩
      | some entry => exact a.openSocket m h key platform entry

theorem read (a : s.Alike s') (m : r.Matches r' R) (h : R st st') (request : Request) :
    Both R (s.read r request st) (s'.read r' request st') := by
  have status : s'.service.status = s.service.status := by
    obtain ⟨refusal, same⟩ := a
    rfl
  unfold Server.read
  rw [status]
  split
  · exact a.hot m h request
  · exact ⟨.same _, a, h⟩
  · exact ⟨.same _, a, h⟩

theorem answer (a : s.Alike s') (m : r.Matches r' R) (h : R st st') (request : Request) :
    Both R (s.answer r request st) (s'.answer r' request st') := by
  obtain ⟨answer, server, files⟩ := a.read m h request
  unfold Server.answer
  split
  · exact ⟨answer, server, files⟩
  · exact ⟨answer.withoutBody, server, files⟩
  · exact ⟨.same _, a, h⟩
  · exact ⟨.same _, a, h⟩

/-- **Whatever happens to both servers**, they answer alike and stay alike. -/
theorem act (a : s.Alike s') (m : r.Matches r' R) (h : R st st') {x : Act σ} {x' : Act σ'}
    (same : x.Alike R x') :
    List.Forall₂ Answer.Alike (s.act r st x).1 (s'.act r' st' x').1 ∧
      (s.act r st x).2.1.Alike (s'.act r' st' x').2.1 ∧
      R (s.act r st x).2.2 (s'.act r' st' x').2.2 := by
  cases same with
  | request request =>
    obtain ⟨answer, server, files⟩ := a.answer m h request
    exact ⟨.cons answer .nil, server, files⟩
  | receive id incoming => exact ⟨.nil, a.receive id incoming, h⟩
  | forward id => exact ⟨.nil, a.forward id, h⟩
  | work id =>
    obtain ⟨hs⟩ := a
    refine ⟨.nil, ?_⟩
    rcases hs.step? m h id with ⟨none_, none_'⟩ | ⟨s₁, st₁, s₁', st₁', some_, some_', h₁, hst⟩
    · simp only [Server.act, none_, none_']
      exact ⟨.mk hs, h⟩
    · simp only [Server.act, some_, some_']
      exact ⟨.mk h₁, hst⟩
  | emit change =>
    obtain ⟨hs⟩ := a
    exact ⟨.nil, .mk (hs.emit change).2, h⟩
  | disconnect id =>
    obtain ⟨hs⟩ := a
    exact ⟨.nil, .mk (hs.disconnect id).2, h⟩
  | refuse reason reason' =>
    obtain ⟨hs⟩ := a
    exact ⟨.nil, .mk (hs.refuse reason reason'), h⟩
  | cling =>
    obtain ⟨hs⟩ := a
    exact ⟨.nil, .mk hs.cling, h⟩
  | edit hst => exact ⟨.nil, a, hst⟩

/-- Two servers that are alike, through any number of events. -/
theorem play (m : r.Matches r' R) {acts : List (Act σ)} {acts' : List (Act σ')}
    (same : List.Forall₂ (Act.Alike R) acts acts') {s s' : Server} (a : s.Alike s')
    {st : σ} {st' : σ'} (h : R st st') :
    List.Forall₂ Answer.Alike (s.play r acts st).1 (s'.play r' acts' st').1 ∧
      (s.play r acts st).2.1.Alike (s'.play r' acts' st').2.1 := by
  induction same generalizing s s' st st' with
  | nil => exact ⟨.nil, a⟩
  | cons first _ ih =>
    obtain ⟨answers, a₁, h₁⟩ := a.act m h first
    obtain ⟨more, a₂⟩ := ih a₁ h₁
    exact ⟨List.rel_append answers more, a₂⟩

end Alike

/-- **Two runs that differ in the texts of internal faults alone** write the same frames and send
the same messages, and answer every request alike: but for the text of an internal fault in the
answer to a client that cannot be connected. -/
theorem play_alike {σ σ' : Type} {r : Resolver σ} {r' : Resolver σ'} {R : σ → σ' → Prop}
    (m : r.Matches r' R) {st : σ} {st' : σ'} (h : R st st') {acts : List (Act σ)}
    {acts' : List (Act σ')} (same : List.Forall₂ (Act.Alike R) acts acts') (s : Server) :
    (s.play r' acts' st').2.1.sockets = (s.play r acts st).2.1.sockets ∧
      (∀ id, (s.play r' acts' st').2.1.service.messagesOf id =
        (s.play r acts st).2.1.service.messagesOf id) ∧
      List.Forall₂ Answer.Alike (s.play r acts st).1 (s.play r' acts' st').1 := by
  obtain ⟨answers, a⟩ := Alike.play m same (.refl s) h
  exact ⟨a.sockets, a.messagesOf, answers⟩

end Server

end HotReload.Http

namespace HotReload.Sample

open Http

/-- A server for the files below the root. -/
def server : Server := { root := ⟨"/"⟩, service := {} }

/-- A client asks for the updates of the sample program. -/
def visit : Request where
  method := "GET"
  target := ⟨"/hot", some "platform=ios&bundleEntry=main"⟩
  headers :=
    [⟨"connection", "upgrade"⟩, ⟨"upgrade", "websocket"⟩, ⟨"sec-websocket-key", "key"⟩,
      ⟨"sec-websocket-version", "13"⟩]

/-- The text of a response. -/
def bodyOf : Http.Answer → Option String
  | .response response => some response.body
  | .upgraded .. => none

/-- The program, with an internal fault that the lookup of its entry file runs into. -/
def blocked (text : String) : Tree := tree.failAt .module entry (.other text)

/-- The client comes, the second file imports a new one, whose build runs into an internal fault,
and the client is told of it. -/
def troubled (text : String) : List (Act Tree) :=
  [.request visit, .edit (grown.failAt .build newcomer (.other text)), .emit edit] ++
    List.replicate 10 (.work 1) ++ List.replicate 3 (.forward 1)

theorem troubled_alike (text text' : String) :
    List.Forall₂ (Act.Alike fun t t' : Tree => t.shown = t'.shown) (troubled text)
      (troubled text') := by
  refine List.rel_append (List.rel_append ?_ ?_) ?_
  · exact .cons (.request visit) (.cons (.edit rfl) (.cons (.emit edit) .nil))
  · exact List.forall₂_same.mpr fun x hx => List.eq_of_mem_replicate hx ▸ .work 1
  · exact List.forall₂_same.mpr fun x hx => List.eq_of_mem_replicate hx ▸ .forward 1

/-- **The answer to a client that cannot be connected** tells the text of the internal fault. -/
theorem refusal_discloses :
    (blocked "one").shown = (blocked "two").shown ∧
      (server.play Tree.resolver [.request visit] (blocked "one")).1.map bodyOf =
        [some "Internal error: one"] ∧
      (server.play Tree.resolver [.request visit] (blocked "two")).1.map bodyOf =
        [some "Internal error: two"] := by
  refine ⟨rfl, ?_, ?_⟩ <;> decide +kernel

theorem troubled_undisclosed :
    (server.play Tree.resolver (troubled "one") tree).2.1.sockets.map (·.2.written.length) = [3] ∧
      (server.play Tree.resolver (troubled "two") tree).2.1.sockets =
        (server.play Tree.resolver (troubled "one") tree).2.1.sockets :=
  ⟨by decide +kernel,
    (Server.play_alike Tree.resolver_matches rfl (troubled_alike "one" "two") server).1⟩

end HotReload.Sample
