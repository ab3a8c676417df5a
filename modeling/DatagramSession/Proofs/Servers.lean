import DatagramSession.Proofs.Lobbies
import DatagramSession.Server.Routing
import DatagramSession.Server.Upkeep
/-!
# What becomes of a server's connections

`Server.Act` lists what a host, its clock and the sweeps do to a server.  None of it is more than a
move of the lobby (`act_keeps`); a flush builds envelopes besides (`flushIn_moves`).  A datagram
without an envelope either keeps the connections or opens one (`route_keeps`, `route_opens`), and an
envelope concerns the connection at its endpoint, if that takes it (`route_envelope`).
-/
namespace DatagramSession.Server

/-- The application is handed a command of what was heard from the connection in whose name it is
handed. -/
def Hears (heard : ConnectionId → Option Envelope) (d : Delivery) : Prop :=
  ∃ k ∈ d.source, ∃ e ∈ heard k, d.command ∈ e.commands

/-- The lobby has moved, and all that was handed out was heard. -/
structure Moves (heard : ConnectionId → Option Envelope) (built : ConnectionId → List Envelope)
    (s s' : Server) :
    Prop where
  lobby : Lobby.Moves heard built s.lobby s'.lobby
  told : Told (Hears heard) s.deliveries s'.deliveries

/-- Nothing is built for anyone. -/
abbrev Keeps (heard : ConnectionId → Option Envelope) (s s' : Server) : Prop :=
  Moves heard (fun _ => []) s s'

variable {heard : ConnectionId → Option Envelope} {built : ConnectionId → List Envelope}
  {s s' s'' : Server}

theorem keeps_of_lobby (lobby : Lobby.Keeps heard s.lobby s'.lobby)
    (deliveries : s'.deliveries = s.deliveries) :
    Keeps heard s s' :=
  ⟨lobby, .of_eq deliveries⟩

theorem keeps_of_eq (lobby : s'.lobby = s.lobby) (deliveries : s'.deliveries = s.deliveries) :
    Keeps heard s s' :=
  keeps_of_lobby (lobby ▸ Lobby.keeps_rest heard s.lobby) deliveries

theorem keeps_rest (heard : ConnectionId → Option Envelope) (s : Server) : Keeps heard s s :=
  keeps_of_eq rfl rfl

theorem Moves.then (first : Moves heard built s s') (second : Keeps heard s' s'') :
    Moves heard built s s'' :=
  ⟨first.lobby.then second.lobby, first.told.trans second.told⟩

theorem modify_keeps {id : ConnectionId} {f : Connection → Connection}
    (kept : ∀ c, s.connection? id = some c → (f c).id = c.id ∧ (f c).inbound = c.inbound) :
    Keeps heard s { s with lobby := s.lobby.modify id f } :=
  keeps_of_lobby (Lobby.keeps_modify kept) rfl

theorem close_keeps (heard : ConnectionId → Option Envelope) (s : Server) (id : ConnectionId)
    (reason : DisconnectReason) : Keeps heard s (s.close id reason).2 :=
  keeps_of_lobby (Lobby.keeps_close heard s.lobby id reason) rfl

theorem sendTo_keeps (heard : ConnectionId → Option Envelope) (s : Server) (c : Connection)
    (body : Body) :
    Keeps heard s (s.sendTo c body).2 :=
  keeps_of_lobby (Lobby.keeps_modify fun _ _ => ⟨rfl, rfl⟩) rfl

theorem sayGoodbye_keeps (heard : ConnectionId → Option Envelope) (s : Server) (id : ConnectionId) :
    Keeps heard s (s.sayGoodbye id) := by
  unfold sayGoodbye
  split
  · exact sendTo_keeps heard s _ _
  · exact keeps_rest heard s

theorem shutdown_keeps (heard : ConnectionId → Option Envelope) (s : Server) :
    Keeps heard s s.shutdown := by
  refine List.foldlRecOn s.ids _ (motive := Keeps heard s) (keeps_rest heard s) ?_
  intro s' kept id _
  exact (kept.then (sayGoodbye_keeps heard s' id)).then (close_keeps heard _ id .graceful)

theorem enqueue_keeps {c : Command} (message : c.confirmed? = none) (id : ConnectionId) :
    Keeps heard s (s.enqueue id c).2 :=
  keeps_of_lobby (Lobby.keeps_peers fun k =>
    PeerMap.moves_atPeer (PeerSlot.moves_enqueue message) k) rfl

theorem broadcast_keeps {c : Command} (message : c.confirmed? = none) :
    Keeps heard s (s.broadcast c).2 :=
  keeps_of_lobby (Lobby.keeps_peers fun k => PeerMap.moves_enqueueAll message heard _ _ k) rfl

theorem relay_keeps {c : Command} (message : c.confirmed? = none) (source : ConnectionId) :
    Keeps heard s (s.relay source c) :=
  keeps_of_lobby (Lobby.keeps_peers fun k => PeerMap.moves_enqueueAll message heard _ _ k) rfl

/-! ## Sweeps -/

theorem sweepOne_keeps (heard : ConnectionId → Option Envelope) (acc : SweepReport × Server)
    (id : ConnectionId) :
    Keeps heard acc.2 (sweepOne acc id).2 := by
  obtain ⟨report, s⟩ := acc
  unfold sweepOne
  dsimp only
  split
  case h_1 => exact keeps_rest heard s
  case h_2 c _ =>
    split
    · exact close_keeps heard s id .timeout
    · split
      case h_1 => exact keeps_rest heard s
      case h_2 f _ =>
        have sent := sendTo_keeps heard s c (.control f)
        split
        case h_1 n s' result =>
          rw [result] at sent
          exact sent
        case h_2 e s' result =>
          rw [result] at sent
          exact sent

theorem sweepIn_keeps (heard : ConnectionId → Option Envelope) (s : Server)
    (order : List ConnectionId) :
    Keeps heard s (s.sweepIn order).2 := by
  have swept : Keeps heard s (order.foldl sweepOne ({}, s)).2 := by
    refine List.foldlRecOn order _ (motive := fun acc : SweepReport × Server => Keeps heard s acc.2)
      (keeps_rest heard s) ?_
    intro acc kept id _
    exact kept.then (sweepOne_keeps heard acc id)
  exact swept.then (keeps_of_lobby (Lobby.keeps_expirePending heard _ _ _) rfl)

/-! ## What a host does -/

/-- What may happen to a server, datagrams and flushes apart. -/
inductive Act : Server → Server → Prop where
  | enqueue (s : Server) (id : ConnectionId) (c : Command) (message : c.confirmed? = none) :
      Act s (s.enqueue id c).2
  | broadcast (s : Server) (c : Command) (message : c.confirmed? = none) : Act s (s.broadcast c).2
  | tell (s : Server) (id : ConnectionId) (m : ControlMessage) : Act s (s.tell id m)
  | kick (s : Server) (id : ConnectionId) (reason : String) : Act s (s.kick id reason).2
  | close (s : Server) (id : ConnectionId) (reason : DisconnectReason) : Act s (s.close id reason).2
  | shutdown (s : Server) : Act s s.shutdown
  | sweep (s : Server) (order : List ConnectionId) : Act s (s.sweepIn order).2
  | addHandler (s : Server) (h : ServerHandler) : Act s (s.addHandler h)
  | removeHandler (s : Server) (h : ServerHandler) : Act s (s.removeHandler h).2
  | introduce (s : Server) (name : String) : Act s (s.introduce name)
  | addWatcher (s : Server) (w : Watcher) : Act s (s.addWatcher w)
  | takeEvents (s : Server) : Act s { s with lobby := s.lobby.takeEvents.2 }
  | takeDeliveries (s : Server) : Act s s.takeDeliveries.2
  | elapse (s : Server) (d : Duration) : Act s (s.elapse d)
  /-- The network takes datagrams from the outbox, or the link changes. -/
  | relink (s : Server) (transport : Transport) : Act s { s with transport }

theorem act_keeps (act : Act s s') : Keeps heard s s' := by
  cases act with
  | enqueue id c message => exact enqueue_keeps message id
  | broadcast c message => exact broadcast_keeps message
  | tell | kick => exact modify_keeps fun _ _ => ⟨rfl, rfl⟩
  | close id reason => exact close_keeps heard s id reason
  | shutdown => exact shutdown_keeps heard s
  | sweep order => exact sweepIn_keeps heard s order
  | addWatcher | takeEvents => exact keeps_of_lobby (Lobby.keeps_of_eq rfl rfl rfl) rfl
  | takeDeliveries => exact ⟨Lobby.keeps_rest heard s.lobby, .taken⟩
  | addHandler | removeHandler | introduce | elapse | relink => exact keeps_of_eq rfl rfl

/-! ## Flushes -/

/-- The envelopes that a flush builds, each with the connection that it is for. -/
def builds (s : Server) (connections peers : List ConnectionId) : List (ConnectionId × Envelope) :=
  ((connections.foldl keepAliveOne s).lobby.peers.flushEach peers).1

/-- The envelopes for one connection. -/
def buildsFor (s : Server) (connections peers : List ConnectionId) (k : ConnectionId) :
    List Envelope :=
  ((s.builds connections peers).filter (·.1 = k)).map Prod.snd

/-- Asking for an envelope changes outbound states only. -/
theorem keepAliveOne_eq (s : Server) (id : ConnectionId) : ∃ peers,
    s.keepAliveOne id = { s with lobby := { s.lobby with peers } } := by
  unfold keepAliveOne
  split
  · split
    · exact ⟨_, rfl⟩
    · exact ⟨_, rfl⟩
  · exact ⟨_, rfl⟩

theorem foldl_keepAliveOne_eq (s : Server) (ids : List ConnectionId) : ∃ peers,
    ids.foldl keepAliveOne s = { s with lobby := { s.lobby with peers } } := by
  refine List.foldlRecOn ids _
    (motive := fun t : Server => ∃ peers, t = { s with lobby := { s.lobby with peers } })
    ⟨_, rfl⟩ ?_
  rintro _ ⟨peers, rfl⟩ id _
  obtain ⟨peers', asked⟩ := keepAliveOne_eq { s with lobby := { s.lobby with peers } } id
  exact ⟨peers', asked⟩

theorem keepAliveOne_keeps (heard : ConnectionId → Option Envelope) (s : Server)
    (id : ConnectionId) :
    Keeps heard s (s.keepAliveOne id) := by
  unfold keepAliveOne
  split
  · split
    · exact keeps_of_lobby
        (Lobby.keeps_peers fun k => PeerMap.moves_atPeer PeerSlot.moves_keepAlive k) rfl
    · exact keeps_rest heard s
  · exact keeps_rest heard s

theorem sendEnvelope_keeps (heard : ConnectionId → Option Envelope) (acc : Nat × Server)
    (mail : ConnectionId × Envelope) : Keeps heard acc.2 (sendEnvelope acc mail).2 := by
  obtain ⟨count, s⟩ := acc
  unfold sendEnvelope
  dsimp only
  split
  case h_1 => exact keeps_rest heard s
  case h_2 c _ =>
    have sent := sendTo_keeps heard s c (.envelope mail.2)
    split
    case h_1 n s' result =>
      rw [result] at sent
      exact sent.then (modify_keeps fun _ _ => ⟨rfl, rfl⟩)
    case h_2 size s' result =>
      rw [result] at sent
      exact (sent.then (sayGoodbye_keeps heard s' mail.1)).then
        (close_keeps heard _ mail.1 .oversized)
    case h_3 e s' _ result =>
      rw [result] at sent
      exact sent

theorem flushIn_moves (heard : ConnectionId → Option Envelope) (s : Server)
    (connections peers : List ConnectionId) :
    Moves heard (s.buildsFor connections peers) s (s.flushIn connections peers).2 := by
  have asked : Keeps heard s (connections.foldl keepAliveOne s) := by
    refine List.foldlRecOn connections _ (motive := Keeps heard s) (keeps_rest heard s) ?_
    intro s' kept id _
    exact kept.then (keepAliveOne_keeps heard s' id)
  have flushed : Lobby.Moves heard (s.buildsFor connections peers)
      (connections.foldl keepAliveOne s).lobby
      { (connections.foldl keepAliveOne s).lobby with
        peers := ((connections.foldl keepAliveOne s).lobby.peers.flushEach peers).2 } :=
    ⟨fun k => PeerMap.moves_flushEach heard peers _ k, fun k => Registry.lasts_of_eq rfl, rfl⟩
  unfold flushIn
  refine List.foldlRecOn (s.builds connections peers) _
    (motive := fun acc : Nat × Server => Moves heard (s.buildsFor connections peers) s acc.2) ?_ ?_
  · exact ⟨asked.lobby.before flushed, asked.told⟩
  · intro acc moved mail _
    exact moved.then (sendEnvelope_keeps heard acc mail)

/-! ## Datagrams without an envelope -/

/-- The connection at an endpoint is kept under its own id. -/
theorem connection?_of_connectionAt? (keyed : s.lobby.registry.Keyed) {endpoint : Address}
    {c : Connection} (found : s.lobby.registry.connectionAt? endpoint = some c) :
    s.connection? c.id = some c := by
  obtain ⟨id, _, live⟩ := Option.bind_eq_some_iff.1 found
  rw [keyed id c live]
  exact live

theorem touch_keeps (heard : ConnectionId → Option Envelope) (s : Server) (c : Connection) :
    Keeps heard s { s with lobby := s.lobby.modify c.id (·.touch s.now) } :=
  modify_keeps fun _ _ => ⟨rfl, rfl⟩

theorem connection?_touch {c : Connection} (live : s.connection? c.id = some c) (now : Instant) :
    (s.lobby.modify c.id (·.touch now)).registry.connection? (c.touch now).id =
      some (c.touch now) := by
  simp only [connection?, Registry.connection?] at live
  simp [Lobby.modify, Registry.connection?, Registry.modify, Table.find?_modify,
    Connection.touch, live]

theorem routeControl_keeps (heard : ConnectionId → Option Envelope) {c : Connection}
    (live : s.connection? c.id = some c) (f : ControlFrame) :
    Keeps heard s (s.routeControl c f).2 := by
  have accepted : Keeps heard s
      { s with lobby := s.lobby.modify c.id fun _ => (c.accept f.order f.confirms).2 } := by
    refine modify_keeps fun c' live' => ?_
    rw [live] at live'
    cases live'
    exact ⟨rfl, rfl⟩
  unfold routeControl
  dsimp only
  split
  · exact accepted
  · exact accepted.then (close_keeps heard _ c.id .kicked)
  · exact accepted

/-- The id of the connection that was registered. -/
def Routed.registered? : Routed → Option ConnectionId
  | .registered id => some id
  | _ => none

theorem routeHello_keeps (heard : ConnectionId → Option Envelope) (s : Server) (endpoint : Address)
    (token : OrderNumber) (hello : Hello)
    (other : Routed.registered? (s.routeHello endpoint token hello).1 = none) :
    Keeps heard s (s.routeHello endpoint token hello).2 := by
  have kept := Lobby.keeps_register heard s.lobby endpoint token hello s.now
  unfold routeHello at other ⊢
  generalize s.lobby.register endpoint token hello s.now = answer at kept other
  obtain ⟨result, lobby⟩ := answer
  dsimp only at kept other ⊢
  split at other
  case h_1 => cases other
  case h_2 | h_3 => exact keeps_of_lobby (kept nofun) rfl
  case h_4 id =>
    exact keeps_of_lobby ((kept nofun).then (Lobby.keeps_modify fun _ _ => ⟨rfl, rfl⟩)) rfl
  case h_5 reason => exact keeps_of_lobby ((kept nofun).then (Lobby.keeps_of_eq rfl rfl rfl)) rfl
  case h_6 e => exact keeps_of_lobby ((kept nofun).then (Lobby.keeps_of_eq rfl rfl rfl)) rfl

theorem routeHello_opens (s : Server) (endpoint : Address) (token : OrderNumber) (hello : Hello)
    {id : ConnectionId} (registered : Routed.registered? (s.routeHello endpoint token hello).1 =
      some id) :
    (s.lobby.register endpoint token hello s.now).1 = .ok (.completed id) ∧
    (s.routeHello endpoint token hello).2 =
      { s with lobby := (s.lobby.register endpoint token hello s.now).2 } := by
  unfold routeHello at registered ⊢
  generalize s.lobby.register endpoint token hello s.now = answer at registered
  obtain ⟨result, lobby⟩ := answer
  dsimp only at registered ⊢
  split at registered
  case h_1 =>
    cases registered
    exact ⟨rfl, rfl⟩
  all_goals cases registered

/-- A datagram without an envelope that registers nobody. -/
theorem route_keeps (heard : ConnectionId → Option Envelope) (keyed : s.lobby.registry.Keyed)
    (endpoint : Address) {bytes : List UInt8}
    (bare : ∀ p e, Wire.decode bytes = .ok p → p.body ≠ .envelope e)
    (other : Routed.registered? (s.route endpoint bytes).1 = none) :
    Keeps heard s (s.route endpoint bytes).2 := by
  unfold route at other ⊢
  cases decoded : Wire.decode bytes with
  | error => exact keeps_rest heard s
  | ok p =>
    simp only [decoded] at other ⊢
    by_cases valid : p.header.isValid
    · simp only [valid, if_true] at other ⊢
      obtain ⟨header, body⟩ := p
      cases body with
      | register hello => exact routeHello_keeps heard s endpoint _ hello other
      | envelope e => exact absurd rfl (bare _ e decoded)
      | control f =>
        simp only [routePacket]
        cases found : s.lobby.registry.connectionAt? endpoint with
        | none => exact keeps_rest heard s
        | some c =>
          have live := connection?_of_connectionAt? keyed found
          exact (touch_keeps heard s c).then
            (routeControl_keeps (s := { s with lobby := s.lobby.modify c.id (·.touch s.now) }) heard
              (connection?_touch live s.now) f)
      | disconnect =>
        simp only [routePacket]
        cases found : s.lobby.registry.connectionAt? endpoint with
        | none => exact keeps_rest heard s
        | some c => exact (touch_keeps heard s c).then (close_keeps heard _ _ .graceful)
    · simp only [valid]
      exact keeps_rest heard s

/-- What is not a hello registers nobody. -/
theorem registered?_routeConnected (s : Server) (c : Connection) (body : Body) :
    Routed.registered? (s.routeConnected c body).1 = none := by
  cases body with
  | control f =>
    simp only [routeConnected, routeControl]
    split <;> rfl
  | register | envelope | disconnect => rfl

theorem routePacket_opens (endpoint : Address) (p : Packet) {id : ConnectionId}
    (registered : Routed.registered? (s.routePacket endpoint p).1 = some id) : ∃ token hello,
      (s.lobby.register endpoint token hello s.now).1 = .ok (.completed id) ∧
      (s.routePacket endpoint p).2 =
        { s with lobby := (s.lobby.register endpoint token hello s.now).2 } := by
  obtain ⟨header, body⟩ := p
  cases body with
  | register hello => exact ⟨header.sequence, hello, s.routeHello_opens endpoint _ hello registered⟩
  | envelope | control | disconnect =>
    simp only [routePacket] at registered
    cases found : s.lobby.registry.connectionAt? endpoint with
    | none =>
      rw [found] at registered
      cases registered
    | some c =>
      rw [found] at registered
      simp only [registered?_routeConnected] at registered
      cases registered

/-- A datagram that registers somebody is a hello. -/
theorem route_opens (endpoint : Address) {bytes : List UInt8} {id : ConnectionId}
    (registered : Routed.registered? (s.route endpoint bytes).1 = some id) : ∃ token hello,
      (s.lobby.register endpoint token hello s.now).1 = .ok (.completed id) ∧
      (s.route endpoint bytes).2 =
        { s with lobby := (s.lobby.register endpoint token hello s.now).2 } := by
  unfold route at registered ⊢
  cases decoded : Wire.decode bytes with
  | error =>
    rw [decoded] at registered
    cases registered
  | ok p =>
    simp only [decoded] at registered ⊢
    by_cases valid : p.header.isValid
    · simp only [valid, if_true] at registered ⊢
      exact routePacket_opens endpoint p registered
    · simp only [valid] at registered
      cases registered

/-- The connection that is registered is opened under the next id. -/
theorem opens_route (endpoint : Address) {bytes : List UInt8} {id : ConnectionId}
    (registered : Routed.registered? (s.route endpoint bytes).1 = some id) :
    id = s.lobby.registry.nextId ∧ Lobby.Opens s.lobby (s.route endpoint bytes).2.lobby id := by
  obtain ⟨token, hello, completed, result⟩ := route_opens endpoint registered
  rw [result]
  exact Lobby.opens_register _ endpoint token hello _ completed

/-! ## Envelopes -/

/-- Nobody registers by an envelope. -/
theorem registered?_envelope {endpoint : Address} {bytes : List UInt8} {sequence : UInt32}
    {e : Envelope} (carried : Wire.decode bytes = .ok (.numbered sequence (.envelope e))) :
    Routed.registered? (s.route endpoint bytes).1 = none := by
  simp only [route, carried, routePacket, Packet.numbered]
  cases s.lobby.registry.connectionAt? endpoint <;> rfl

/-- The connection that takes an envelope which arrives now, and the guaranteed commands that are
handed to all the handlers in its name. -/
def takes (s : Server) (endpoint : Address) (e : Envelope) : Option (ConnectionId × List Command) :=
  match s.lobby.registry.connectionAt? endpoint with
  | some c =>
    if e.order.isNewer c.inbound.watermark then some (c.id, e.freshCommands c.inbound.watermark)
    else none
  | none => none

theorem takes_eq_some (keyed : s.lobby.registry.Keyed) {endpoint : Address} {e : Envelope}
    {id : ConnectionId} {fresh : List Command} (taken : s.takes endpoint e = some (id, fresh)) :
    ∃ c, s.connection? id = some c ∧
      e.order.isNewer c.inbound.watermark = true ∧ fresh = e.freshCommands c.inbound.watermark := by
  unfold takes at taken
  split at taken
  case h_1 c found =>
    split at taken
    case isTrue newer =>
      cases taken
      exact ⟨c, connection?_of_connectionAt? keyed found, newer, rfl⟩
    case isFalse => cases taken
  case h_2 => cases taken

/-- The envelope is heard from one connection. -/
def hearing (id : ConnectionId) (e : Envelope) : ConnectionId → Option Envelope :=
  fun k => if k = id then some e else none

/-- An envelope from there makes the relay pass on an acknowledgement: it is new, and one of its new
guaranteed commands is an acknowledgement. -/
def Forges (s : Server) (endpoint : Address) (e : Envelope) : Prop :=
  ∃ c, s.lobby.registry.connectionAt? endpoint = some c ∧
    e.order.isNewer c.inbound.watermark = true ∧
    .relay ∈ s.handlers ∧ ∃ a ∈ e.freshCommands c.inbound.watermark, a.confirmed?.isSome = true

/-- All guaranteed commands are messages. -/
def Plain (e : Envelope) : Prop :=
  ∀ b ∈ e.guaranteed, ∀ c ∈ b.commands, c.confirmed? = none

theorem Plain.not_forges {e : Envelope} (plain : Plain e) (endpoint : Address) :
    ¬ s.Forges endpoint e := by
  rintro ⟨_, _, _, _, a, fresh, confirms⟩
  obtain ⟨b, hb, ha⟩ := List.mem_flatMap.1 fresh
  rw [plain b (List.mem_filter.1 hb).1 a ha] at confirms
  cases confirms

theorem perform_keeps {e : Envelope} {watermark : Option OrderNumber} {id : ConnectionId}
    {call : Call ServerHandler} (belongs : call.Belongs e watermark)
    (honest : ∀ c, call = .guaranteed .relay c → c.confirmed? = none) (s : Server) :
    Keeps (hearing id e) s ((receiver id).perform call s) := by
  have own : e ∈ hearing id e id := by simp [hearing]
  match call, belongs with
  | .guaranteed .peers _, _ => exact keeps_rest _ s
  | .guaranteed .relay c, _ => exact relay_keeps (honest c rfl) id
  | .guaranteed (.application _) c, fresh =>
    exact ⟨Lobby.keeps_rest _ _,
      .deliver _ ⟨id, rfl, e, own, e.freshCommands_subset watermark fresh⟩⟩
  | .acknowledge _, ⟨_, acknowledges⟩ =>
    subst acknowledges
    exact keeps_of_lobby
      (Lobby.keeps_peers fun k => PeerMap.moves_atPeer (PeerSlot.moves_acknowledge own) k) rfl
  | .unreliable .peers c, carried =>
    exact keeps_of_lobby
      (Lobby.keeps_peers fun k => PeerMap.moves_atPeer (PeerSlot.moves_heed own carried) k) rfl
  | .unreliable .relay c, _ =>
    simp only [receiver]
    split
    case isTrue message => exact relay_keeps (by simpa using message) id
    case isFalse => exact keeps_rest _ s
  | .unreliable (.application _) c, carried =>
    exact ⟨Lobby.keeps_rest _ _, .deliver _ ⟨id, rfl, e, own, List.mem_append_right _ carried⟩⟩

theorem performAll_keeps {e : Envelope} {watermark : Option OrderNumber} (id : ConnectionId)
    (s : Server) (honest : .relay ∈ s.handlers →
      ∀ a ∈ e.freshCommands watermark, a.confirmed? = none) :
    Keeps (hearing id e) s ((receiver id).performAll (e.calls watermark s.handlers) s) := by
  refine (receiver id).performAll_induct (keeps_rest _ s) ?_
  intro call made s' kept
  refine kept.then (perform_keeps (Call.belongs_of_mem_calls made) ?_ s')
  rintro c rfl
  obtain ⟨relays, fresh⟩ := Call.mem_calls_guaranteed.1 made
  exact honest relays c fresh

/-- What an envelope does to the server. -/
theorem route_envelope (keyed : s.lobby.registry.Keyed) (endpoint : Address) {bytes : List UInt8}
    {sequence : UInt32} {e : Envelope}
    (carried : Wire.decode bytes = .ok (.numbered sequence (.envelope e)))
    (honest : ¬ s.Forges endpoint e) :
    (s.takes endpoint e = none → Keeps heard s (s.route endpoint bytes).2) ∧
    (∀ id fresh, s.takes endpoint e = some (id, fresh) → ∃ s', Keeps (hearing id e) s s' ∧
      (s.route endpoint bytes).2 =
        { s' with lobby := s'.lobby.modify id fun c => { c with inbound := ⟨some e.order⟩ } }) := by
  unfold route takes
  simp only [carried, routePacket, Packet.numbered]
  cases found : s.lobby.registry.connectionAt? endpoint with
  | none => exact ⟨fun _ => keeps_rest heard s, fun _ _ taken => by cases taken⟩
  | some c =>
    have live := connection?_of_connectionAt? keyed found
    have touched : (c.touch s.now).inbound = c.inbound ∧ (c.touch s.now).id = c.id := ⟨rfl, rfl⟩
    simp only [routeConnected, routeEnvelope, Receiver.receive_eq, Inbound.take, touched]
    by_cases newer : e.order.isNewer c.inbound.watermark
    · simp only [newer, if_true]
      refine ⟨fun refused => (by cases refused), ?_⟩
      rintro id fresh ⟨⟩
      refine ⟨_, (touch_keeps _ s c).then (performAll_keeps c.id
        { s with lobby := s.lobby.modify c.id (·.touch s.now) } fun relays a mem => ?_), rfl⟩
      by_contra confirms
      exact honest ⟨c, found, newer, relays, a, mem, Option.isSome_iff_ne_none.2 confirms⟩
    · simp only [newer, Bool.false_eq_true, if_false]
      refine ⟨fun _ => (touch_keeps heard s c).then (modify_keeps ?_),
        fun _ _ taken => by cases taken⟩
      intro c' live'
      have same := (connection?_touch live s.now).symm.trans live'
      cases same
      exact ⟨rfl, rfl⟩

end DatagramSession.Server
