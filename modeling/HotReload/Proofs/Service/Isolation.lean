import HotReload.Proofs.Service.Twins

/-!
# Clients do not disturb each other

Clients share the source, the fan-out, the numbers of connections, the store and the files.  What a
client is sent depends on none of the others: where all that they did is left out of a script, the
client is sent the same messages.

* `Scene.Act`, `Scene.act`: what is done to a service and its files from without.
* `Scene.Plays`: a script is played, and after each act the service settles.
* `Scene.Shadow`: what is left of a scene when all clients but one are left out.
* `Scene.isolated`: a client is sent the same messages, with and without the others.
-/

namespace HotReload

/-! ### Scripts -/

/-- A way in which a client leaves. -/
inductive Leave where
  /-- It is taken out. -/
  | disconnect
  /-- It takes no more messages. -/
  | close
  /-- It takes only so many more messages. -/
  | closeAfter (n : Nat)

/-- The client of a connection leaves. -/
def Leave.apply (how : Leave) (s : Service) (id : ConnectionId) : Service :=
  match how with
  | .disconnect => (s.disconnect id).2
  | .close => s.onSink id Sink.close
  | .closeAfter n => s.onSink id (·.closeAfter n)

/-- A service with its files and the connections that its clients were given. -/
structure Scene (κ : Type) where
  service : Service
  tree : Tree
  /-- The connections by the names of the clients, the last one first; none where a client was not
  given one. -/
  clients : List (κ × Option ConnectionId) := []

namespace Scene

/-- What is done to a service and its files from without; clients go by names. -/
inductive Act (κ : Type) where
  /-- The files are changed, a fault is planted in them, or builds are held or released. -/
  | edit (edit : Tree.Edit)
  /-- The source reports some changes, one right after the other. -/
  | report (changes : List Change)
  /-- The source will not let its listener go the next time. -/
  | cling
  | connect (client : κ) (platform : String) (entry : Path)
  | leave (client : κ) (how : Leave)

variable {κ : Type}

/-- The client that does it. -/
def Act.client? : Act κ → Option κ
  | .connect client _ _ => some client
  | .leave client _ => some client
  | _ => none

/-- Whether no client but one given does it. -/
def Act.concerns [DecidableEq κ] (client : κ) (a : Act κ) : Bool := a.client?.all (· = client)

/-- A service that nobody was connected to. -/
def start (endpoint : Endpoint) (tree : Tree) : Scene κ := { service := { endpoint }, tree }

/-- The service has settled, with its workers in any order. -/
structure Settles (s s' : Scene κ) : Prop where
  service : s.service.Settles Tree.resolver s.tree s'.service s'.tree
  clients : s'.clients = s.clients

variable [DecidableEq κ]

/-- The connections that were given to a client, the last one first. -/
def connections (s : Scene κ) (client : κ) : List (Option ConnectionId) :=
  (s.clients.filter (·.1 = client)).map (·.2)

/-- The last connection that was given to a client. -/
def last? (s : Scene κ) (client : κ) : Option ConnectionId := (s.connections client).head?.join

/-- The messages that a client was sent, connection by connection. -/
def received (s : Scene κ) (client : κ) : List (Option (List Message)) :=
  (s.connections client).map (·.map s.service.messagesOf)

/-- The scene after an act, before the service settles.  A name means the last client that was
connected under it. -/
def act (s : Scene κ) : Act κ → Scene κ
  | .edit edit => { s with tree := edit.apply s.tree }
  | .report changes => { s with service := s.service.report changes }
  | .cling =>
    { s with
      service := s.service.withSource { s.service.store.fanout.source with isSticky := true } }
  | .connect client platform entry =>
    let (answer, service, tree) := s.service.connect Tree.resolver platform entry {} s.tree
    { service, tree, clients := (client, answer.toOption) :: s.clients }
  | .leave client how =>
    { s with service := (s.last? client).elim s.service (how.apply s.service) }

/-- A script is played, and the service settles after each act. -/
inductive Plays : Scene κ → List (Act κ) → Scene κ → Prop where
  | nil (s : Scene κ) : Plays s [] s
  | cons {s s₁ s' : Scene κ} {a : Act κ} {acts : List (Act κ)} (h : (s.act a).Settles s₁)
      (t : Plays s₁ acts s') : Plays s (a :: acts) s'

/-! ### Leaving -/

end Scene

namespace Leave

variable {s s' : Service} {id id' : ConnectionId}

theorem ready (how : Leave) (h : s.Ready) (id : ConnectionId) : (how.apply s id).Ready := by
  cases how with
  | disconnect => exact h.disconnect id
  | close => exact h.onSink id Sink.close
  | closeAfter n => exact h.onSink id (·.closeAfter n)

theorem fixed (how : Leave) (s : Service) (id : ConnectionId) :
    (how.apply s id).fixed = s.fixed := by
  cases how with
  | disconnect => exact s.fixed_disconnect id
  | close => rfl
  | closeAfter n => rfl

theorem worker?_ne (how : Leave) (s : Service) {j : ConnectionId} (other : j ≠ id) :
    (how.apply s id).worker? j = s.worker? j := by
  cases how with
  | disconnect => exact s.worker?_disconnect_ne other
  | close => exact s.worker?_onWorker_ne _ other
  | closeAfter n => exact s.worker?_onWorker_ne _ other

theorem twins (how : Leave) (h : s.Twins s' id id') (sound : s.Sound) (sound' : s'.Sound) :
    (how.apply s id).Twins (how.apply s' id') id id' := by
  cases how with
  | disconnect => exact h.disconnect sound sound'
  | close => exact h.onSink Sink.close
  | closeAfter n => exact h.onSink (·.closeAfter n)

end Leave

namespace Scene

variable {κ : Type} {s s' s₁ p p' p₁ : Scene κ} {client : κ} {a : Act κ} {acts : List (Act κ)}

/-! ### Ready scenes -/

/-- A scene is ready for the next act. -/
structure Ready (s : Scene κ) : Prop where
  service : s.service.Ready
  /-- A connection is given to one client. -/
  owner : ∀ {client client' : κ} {id : ConnectionId},
    (client, some id) ∈ s.clients → (client', some id) ∈ s.clients → client = client'
  given : ∀ {client : κ} {id : ConnectionId},
    (client, some id) ∈ s.clients → id < s.service.store.nextId

theorem Ready.start (endpoint : Endpoint) (tree : Tree) :
    (start endpoint tree : Scene κ).Ready where
  service := .new endpoint
  owner mem := absurd mem List.not_mem_nil
  given mem := absurd mem List.not_mem_nil

namespace Ready

/-- Nobody connects. -/
theorem of_fixed (h : s.Ready) (ready : s'.service.Ready) (clients : s'.clients = s.clients)
    (fixed : s'.service.fixed = s.service.fixed) : s'.Ready where
  service := ready
  owner mem mem' := h.owner (clients ▸ mem) (clients ▸ mem')
  given mem := Service.nextId_of_fixed fixed ▸ h.given (clients ▸ mem)

/-- Somebody connects, or tries to. -/
theorem add (h : s.Ready) {service : Service} (ready : service.Ready) {answer : Option ConnectionId}
    (new : ∀ id, answer = some id → id = s.service.store.nextId ∧ id < service.store.nextId)
    (le : s.service.store.nextId ≤ service.store.nextId) (client : κ) (tree : Tree) :
    (⟨service, tree, (client, answer) :: s.clients⟩ : Scene κ).Ready where
  service := ready
  owner {c c' id} mem mem' := by
    rcases List.mem_cons.mp mem with first | before <;>
      rcases List.mem_cons.mp mem' with first' | before'
    · cases first
      cases first'
      rfl
    · cases first
      exact absurd (new id rfl).1 (Nat.ne_of_lt (h.given before'))
    · cases first'
      exact absurd (new id rfl).1 (Nat.ne_of_lt (h.given before))
    · exact h.owner before before'
  given {c id} mem := by
    rcases List.mem_cons.mp mem with first | before
    · cases first
      exact (new id rfl).2
    · exact Nat.lt_of_lt_of_le (h.given before) le

theorem settles (h : s.Ready) (went : s.Settles s') : s'.Ready :=
  h.of_fixed (went.service.ready h.service) went.clients went.service.goes.fixed

end Ready

/-- The scene when its service has settled, one worker after the other. -/
def settled (s : Scene κ) : Scene κ :=
  let (service, tree) := s.service.settle Tree.resolver s.tree
  { s with service, tree }

theorem Ready.settles_settled (h : s.Ready) : s.Settles s.settled where
  service := h.service.settles Tree.resolver_matches Tree.resolver_keeps s.tree.discovery_ends
  clients := rfl

variable [DecidableEq κ]

/-! ### Playing -/

theorem mem_connections {id : Option ConnectionId} :
    id ∈ s.connections client ↔ (client, id) ∈ s.clients := by
  simp [connections]

/-- The last connection of a client is one that was given to it. -/
theorem mem_of_last? {id : ConnectionId} (last : s.last? client = some id) :
    (client, some id) ∈ s.clients :=
  mem_connections.mp (List.mem_of_mem_head? (Option.join_eq_some_iff.mp last))

theorem connections_connect (s : Scene κ) (other : κ) (platform : String) (entry : Path) :
    (s.act (.connect other platform entry)).connections client =
      if other = client then
        (s.service.connect Tree.resolver platform entry {} s.tree).1.toOption ::
          s.connections client
      else s.connections client := by
  simp only [act, connections, List.filter_cons]
  split <;> simp_all

/-- **A scene stays ready.** -/
theorem Ready.act (h : s.Ready) (a : Act κ) : (s.act a).Ready := by
  cases a with
  | edit edit => exact h.of_fixed h.service rfl rfl
  | report changes =>
    exact h.of_fixed (h.service.report changes) rfl (s.service.fixed_report changes)
  | cling => exact h.of_fixed h.service.cling rfl rfl
  | connect client platform entry =>
    rcases h.service.connect_cases Tree.resolver platform entry {} s.tree with
      ⟨fault, -, he⟩ | ⟨graph, service, -, he, ready, nextId, -⟩
    · simp only [Scene.act, he]
      exact h.add h.service (fun _ none_ => by cases none_) (Nat.le_refl _) client _
    · simp only [Scene.act, he]
      refine h.add ready (fun id same => ?_) (nextId ▸ Nat.le_succ _) client _
      cases same
      exact ⟨rfl, nextId ▸ Nat.lt_succ_self _⟩
  | leave client how =>
    simp only [Scene.act]
    cases s.last? client with
    | none => exact h
    | some id => exact h.of_fixed (how.ready h.service id) rfl (how.fixed s.service id)

/-- The scene after a script, where the workers go on one after the other. -/
def play (s : Scene κ) (acts : List (Act κ)) : Scene κ :=
  acts.foldl (fun s a => (s.act a).settled) s

/-- **Every script can be played.** -/
theorem Ready.plays_play (h : s.Ready) (acts : List (Act κ)) : s.Plays acts (s.play acts) := by
  induction acts generalizing s with
  | nil => exact .nil s
  | cons a acts ih =>
    have went := (h.act a).settles_settled
    exact .cons went (ih ((h.act a).settles went))

/-! ### Without the other clients -/

/-- How the files look after an act. -/
theorem shown_act (s : Scene κ) (a : Act κ) :
    (s.act a).tree.shown = match a with
      | .edit edit => (edit.apply s.tree).shown
      | _ => s.tree.shown := by
  cases a with
  | connect client platform entry =>
    simp only [act, Service.connect_state]
    exact Tree.resolver_keeps.discover platform entry s.tree
  | _ => rfl

theorem endpoint_act (s : Scene κ) (a : Act κ) :
    (s.act a).service.endpoint = s.service.endpoint := by
  cases a with
  | edit edit => rfl
  | report changes => exact Service.endpoint_of_fixed (s.service.fixed_report changes)
  | cling => rfl
  | connect client platform entry =>
    exact Service.connect_endpoint Tree.resolver s.service platform entry {} s.tree
  | leave client how =>
    simp only [act]
    cases s.last? client with
    | none => rfl
    | some id => exact Service.endpoint_of_fixed (how.fixed s.service id)

/-- What is left of a scene when all clients but one are left out. -/
structure Shadow (client : κ) (s p : Scene κ) : Prop where
  ready : s.Ready
  ready' : p.Ready
  endpoint : s.service.endpoint = p.service.endpoint
  looks : s.tree.shown = p.tree.shown
  paired : s.service.Paired p.service (s.connections client) (p.connections client)

namespace Shadow

theorem start (endpoint : Endpoint) (tree : Tree) (client : κ) :
    Shadow client (Scene.start endpoint tree) (Scene.start endpoint tree) where
  ready := .start endpoint tree
  ready' := .start endpoint tree
  endpoint := rfl
  looks := rfl
  paired := .nil

theorem received (h : Shadow client s p) : p.received client = s.received client :=
  h.paired.messages

/-- What the client does itself, and what nobody does, is done to both. -/
theorem act (h : Shadow client s p) (own : a.concerns client = true) :
    Shadow client (s.act a) (p.act a) where
  ready := h.ready.act a
  ready' := h.ready'.act a
  endpoint := (s.endpoint_act a).trans (h.endpoint.trans (p.endpoint_act a).symm)
  looks := by
    rw [shown_act, shown_act]
    cases a with
    | edit edit => exact edit.shown_apply h.looks
    | _ => exact h.looks
  paired := by
    have sound := h.ready.service.sound
    have sound' := h.ready'.service.sound
    cases a with
    | edit edit => exact h.paired
    | report changes =>
      exact h.paired.imp fun id id' _ _ twins => twins.report sound sound' changes
    | cling => exact h.paired.imp fun id id' _ _ twins => twins.congr rfl rfl
    | connect other platform entry =>
      obtain rfl : other = client := of_decide_eq_true own
      rw [connections_connect, connections_connect, if_pos rfl, if_pos rfl]
      exact h.paired.connect Tree.resolver_matches h.looks h.ready.service h.ready'.service
        h.endpoint (fun id mem => h.ready.given (mem_connections.mp mem))
        (fun id mem => h.ready'.given (mem_connections.mp mem)) platform entry
    | leave other how =>
      obtain rfl : other = client := of_decide_eq_true own
      exact h.paired.first (fun s id j => how.worker?_ne s) fun id id' twins =>
        how.twins twins sound sound'

/-- What another client does leaves the client as it is. -/
theorem other (h : Shadow client s p) (other : a.concerns client = false) :
    Shadow client (s.act a) p where
  ready := h.ready.act a
  ready' := h.ready'
  endpoint := (s.endpoint_act a).trans h.endpoint
  looks := by
    rw [shown_act]
    cases a with
    | edit edit => cases other
    | _ => exact h.looks
  paired := by
    have mine : ∀ id, some id ∈ s.connections client → (client, some id) ∈ s.clients := fun id =>
      mem_connections.mp
    cases a with
    | connect stranger platform entry =>
      rw [connections_connect, if_neg (of_decide_eq_false other)]
      refine h.paired.imp fun id id' mem _ twins => twins.congr ?_ rfl
      exact Service.worker?_connect_ne Tree.resolver s.service platform entry {} s.tree
        (Nat.ne_of_lt (h.ready.given (mine id mem)))
    | leave stranger how =>
      cases last : s.last? stranger with
      | none =>
        simp only [Scene.act, last]
        exact h.paired
      | some id =>
        simp only [Scene.act, last]
        refine h.paired.imp fun j j' mem _ twins => twins.congr (how.worker?_ne s.service ?_) rfl
        -- a connection that the stranger was given is none of the client's
        rintro rfl
        exact of_decide_eq_false other (h.ready.owner (mem_of_last? last) (mine j mem))
    | _ => cases other

theorem settles (h : Shadow client s p) (went : s.Settles s₁) (went' : p.Settles p₁) :
    Shadow client s₁ p₁ where
  ready := h.ready.settles went
  ready' := h.ready'.settles went'
  endpoint := (Service.endpoint_of_fixed went.service.goes.fixed).trans
    (h.endpoint.trans (Service.endpoint_of_fixed went'.service.goes.fixed).symm)
  looks := (went.service.goes.keeps Tree.resolver_keeps).trans
    (h.looks.trans (went'.service.goes.keeps Tree.resolver_keeps).symm)
  paired := by
    have same : s₁.connections client = s.connections client := by
      rw [connections, went.clients, connections]
    have same' : p₁.connections client = p.connections client := by
      rw [connections, went'.clients, connections]
    rw [same, same']
    exact h.paired.imp fun id id' _ _ twins =>
      twins.settles Tree.resolver_matches Tree.resolver_keeps h.looks h.ready.service.sound
        h.ready'.service.sound went.service went'.service

end Shadow

/-- **A script with the other clients, and without them.** -/
theorem Plays.shadow (played : s.Plays acts s')
    (played' : p.Plays (acts.filter (·.concerns client)) p') (h : Shadow client s p)
    (still : p.Settles p) : Shadow client s' p' := by
  induction played generalizing p with
  | nil s =>
    cases played'
    exact h
  | @cons s s₁ s' a acts went _ ih =>
    cases own : a.concerns client with
    | true =>
      rw [List.filter_cons_of_pos own] at played'
      cases played' with
      | cons went' rest =>
        have settled := (h.act own).settles went went'
        exact ih rest settled ⟨⟨.refl _ _, went'.service.still⟩, rfl⟩
    | false =>
      -- the act is not in the other script, where the service waits meanwhile
      rw [List.filter_cons_of_neg (by simp [own])] at played'
      exact ih played' ((h.other own).settles went still) still

/-- **Clients do not disturb each other.**  A script can be played with all of its clients and with
one of them alone, and however both are played, the client is sent the same messages. -/
theorem isolated (endpoint : Endpoint) (tree : Tree) (acts : List (Act κ)) (client : κ) :
    (∃ s, (start endpoint tree).Plays acts s) ∧
    (∃ s, (start endpoint tree).Plays (acts.filter (·.concerns client)) s) ∧
    ∀ s s', (start endpoint tree).Plays acts s →
      (start endpoint tree).Plays (acts.filter (·.concerns client)) s' →
      s'.received client = s.received client := by
  have ready : (start endpoint tree : Scene κ).Ready := .start endpoint tree
  refine ⟨⟨_, ready.plays_play acts⟩, ⟨_, ready.plays_play _⟩, fun s s' played played' => ?_⟩
  have still : (start endpoint tree : Scene κ).Settles (start endpoint tree) :=
    ⟨⟨.refl _ _, fun _ => rfl⟩, rfl⟩
  exact (played.shadow played' (.start endpoint tree client) still).received

end Scene

namespace Sample

/-- A guest is connected first, and it is taken out between two changes. -/
def hosting : List (Scene.Act String) :=
  [.connect "guest" "ios" entry, .connect "host" "ios" entry, .report [edit, edit], .cling,
    .leave "guest" .disconnect, .edit (.setCode part "1"), .report [edit]]

/-- The host is sent the same three frames without its guest, under another number. -/
theorem hosting_undisturbed :
    let start : Scene String := .start {} tree
    let alone := hosting.filter (·.concerns "host")
    start.Plays hosting (start.play hosting) ∧ start.Plays alone (start.play alone) ∧
    ((start.play hosting).connections "host", (start.play alone).connections "host") =
      ([some 2], [some 1]) ∧
    ((start.play hosting).received "host").map (·.map (·.map Message.kind)) =
      [some ["update-start", "update", "update-done", "update-start", "update", "update-done",
        "update-start", "update", "update-done"]] ∧
    (start.play alone).received "host" = (start.play hosting).received "host" := by
  intro start alone
  have ready : start.Ready := .start {} tree
  have played := ready.plays_play hosting
  have played' := ready.plays_play alone
  have facts : ((start.play hosting).connections "host", (start.play alone).connections "host") =
        ([some 2], [some 1]) ∧
      ((start.play hosting).received "host").map (·.map (·.map Message.kind)) =
        [some ["update-start", "update", "update-done", "update-start", "update", "update-done",
          "update-start", "update", "update-done"]] := by
    decide +kernel
  exact ⟨played, played', facts.1, facts.2,
    (Scene.isolated {} tree hosting "host").2.2 _ _ played played'⟩

end Sample

end HotReload
