import DatagramSession.Proofs.Lives
import DatagramSession.Proofs.Servers
import Mathlib.Logic.Relation
/-!
# What a server's operations are made of

A server changes in five ways: something apart from connections and datagrams, something that is
noted about a connection, a control frame that a connection accepts, a datagram that is sent, and an
answer of the lobby.  Sweeps, flushes and whatever a datagram leads to are sequences of such changes
(`sweepIn_changes`, `flushIn_changes`, `route_changes`), so that what each change keeps is kept by
all of them.  Only the hello that completes a connection is left out.
-/
namespace DatagramSession.Server

/-- What a server sends, and to whom: an envelope, a goodbye or the control message that waits to a
connection, a refusal to anybody. -/
inductive Utters (s : Server) : Address → Body → Prop where
  | envelope {k : ConnectionId} {c : Connection} (live : s.connection? k = some c) (e : Envelope) :
      Utters s c.address (.envelope e)
  | disconnect {k : ConnectionId} {c : Connection} (live : s.connection? k = some c) :
      Utters s c.address .disconnect
  | control {k : ConnectionId} {c : Connection} (live : s.connection? k = some c) {f : ControlFrame}
      (head : c.control.head? = some f) : Utters s c.address (.control f)
  | refusal (endpoint : Address) (reason : String) :
      Utters s endpoint (.control (.numbered 0 (.kick reason) false))

/-- One change. -/
inductive Change : Server → Server → Prop where
  /-- Outbound states, reports of refusals, deliveries, handlers or the time. -/
  | aside {s s' : Server} (registry : s'.lobby.registry = s.lobby.registry)
      (transport : s'.transport = s.transport) (quiet : s.lobby.Quiet s'.lobby) : Change s s'
  | note (s : Server) (id : ConnectionId) (f : Connection → Connection)
      (kept : ∀ c, (f c).identity = c.identity ∧ (f c).control = c.control ∧
        (f c).closed = c.closed) :
      Change s { s with lobby := s.lobby.modify id f }
  | accept (s : Server) (id : ConnectionId) (order : OrderNumber) (confirm : Bool) :
      Change s { s with lobby := s.lobby.modify id fun c => (c.accept order confirm).2 }
  | send (s : Server) (target : Address) (p : Packet) (own : s.Utters target p.body) :
      Change s (s.send target p).2
  /-- A hello, a close or an expiry. -/
  | answer (s : Server) (request : Lobby.Request) (opens : s.lobby.enrols? request = none) :
      Change s { s with lobby := s.lobby.answer request }

/-- Any number of changes. -/
abbrev Changes : Server → Server → Prop :=
  Relation.ReflTransGen Change

variable {s s' : Server}

theorem changes_aside (registry : s'.lobby.registry = s.lobby.registry)
    (transport : s'.transport = s.transport) (quiet : s.lobby.Quiet s'.lobby) : Changes s s' :=
  .single (.aside registry transport quiet)

theorem changes_peers {peers : PeerMap ConnectionId}
    (kept : ∀ k, (peers.find? k).isSome = (s.lobby.peers.find? k).isSome) :
    Changes s { s with lobby := { s.lobby with peers } } :=
  changes_aside rfl rfl (Lobby.quiet_peers kept)

theorem connection?_modify (s : Server) (id : ConnectionId) (f : Connection → Connection)
    (k : ConnectionId) :
    { s with lobby := s.lobby.modify id f }.connection? k =
      if id = k then (s.connection? k).map f else s.connection? k :=
  Table.find?_modify _ _ _ _

/-- It matters only what becomes of the connection that is live. -/
theorem modify_congr {id : ConnectionId} {c : Connection} (live : s.connection? id = some c)
    {f g : Connection → Connection} (same : f c = g c) :
    s.lobby.modify id f = s.lobby.modify id g := by
  have found : s.lobby.registry.connections.find? id = some c := live
  simp [Lobby.modify, Registry.modify, Table.modify, found, same]

theorem close_changes (s : Server) (id : ConnectionId) (reason : DisconnectReason) :
    Changes s (s.close id reason).2 :=
  .single (.answer s (.close id reason) rfl)

/-- The sequence number that a datagram uses up is noted before the datagram goes out. -/
theorem sendTo_changes {k : ConnectionId} {c : Connection} (live : s.connection? k = some c)
    {body : Body} (own : ∀ c', c'.identity = c.identity → c'.control = c.control → ∀ s' : Server,
      s'.connection? k = some c' →
      s'.Utters c.address body) : Changes s (s.sendTo c body).2 := by
  have noted : Change s { s with lobby := s.lobby.modify c.id fun c => c.nextSequence.2 } :=
    .note s c.id _ fun _ => ⟨rfl, rfl, rfl⟩
  refine .tail (.single noted) (.send _ c.address (.numbered c.sequence body) ?_)
  by_cases same : c.id = k
  · exact own c.nextSequence.2 rfl rfl _ (by rw [connection?_modify, if_pos same, live]; rfl)
  · exact own c rfl rfl _ (by rw [connection?_modify, if_neg same]; exact live)

theorem address_eq_of_identity {c c' : Connection} (same : c'.identity = c.identity) :
    c'.address = c.address := by
  have endpoints : c'.endpoints = c.endpoints := congrArg (·.2.2) same
  exact (List.cons.inj endpoints).1

theorem sayGoodbye_changes (s : Server) (id : ConnectionId) : Changes s (s.sayGoodbye id) := by
  unfold sayGoodbye
  split
  case h_1 c live =>
    refine sendTo_changes live fun c' same _ s' live' => ?_
    rw [← address_eq_of_identity same]
    exact .disconnect live'
  case h_2 => exact .refl

/-- Ends the given connections in their order, as a shutdown ends all of them. -/
def shutdownIn (s : Server) (order : List ConnectionId) : Server :=
  order.foldl (fun s id => ((s.sayGoodbye id).close id .graceful).2) s

theorem shutdownIn_changes (s : Server) (order : List ConnectionId) :
    Changes s (s.shutdownIn order) := by
  refine List.foldlRecOn order _ (motive := Changes s) .refl ?_
  intro s' changes id _
  exact (changes.trans (sayGoodbye_changes s' id)).trans (close_changes _ id .graceful)

theorem shutdown_changes (s : Server) : Changes s s.shutdown :=
  shutdownIn_changes s s.ids

/-! ## Sweeps and flushes -/

theorem sweepOne_changes (acc : SweepReport × Server) (id : ConnectionId) :
    Changes acc.2 (sweepOne acc id).2 := by
  obtain ⟨report, s⟩ := acc
  unfold sweepOne
  dsimp only
  split
  case h_1 => exact .refl
  case h_2 c live =>
    split
    · exact close_changes s id .timeout
    · split
      case h_1 => exact .refl
      case h_2 f head =>
        have sent : Changes s (s.sendTo c (.control f)).2 := by
          refine sendTo_changes live fun c' same control s' live' => ?_
          rw [← address_eq_of_identity same]
          exact .control live' (control ▸ head)
        split
        case h_1 n s' result =>
          rw [result] at sent
          exact sent
        case h_2 e s' result =>
          rw [result] at sent
          exact sent

theorem sweepIn_changes (s : Server) (order : List ConnectionId) :
    Changes s (s.sweepIn order).2 := by
  have swept : Changes s (order.foldl sweepOne ({}, s)).2 := by
    refine List.foldlRecOn order _ (motive := fun acc : SweepReport × Server => Changes s acc.2)
      .refl ?_
    intro acc changes id _
    exact changes.trans (sweepOne_changes acc id)
  exact swept.tail (.answer _ (.expire _ _) rfl)

theorem sendEnvelope_changes (acc : Nat × Server) (mail : ConnectionId × Envelope) :
    Changes acc.2 (sendEnvelope acc mail).2 := by
  obtain ⟨count, s⟩ := acc
  unfold sendEnvelope
  dsimp only
  split
  case h_1 => exact .refl
  case h_2 c live =>
    have sent : Changes s (s.sendTo c (.envelope mail.2)).2 := by
      refine sendTo_changes live fun c' same _ s' live' => ?_
      rw [← address_eq_of_identity same]
      exact .envelope live' mail.2
    split
    case h_1 n s' result =>
      rw [result] at sent
      exact sent.tail (.note s' mail.1 _ fun _ => ⟨rfl, rfl, rfl⟩)
    case h_2 size s' result =>
      rw [result] at sent
      exact (sent.trans (sayGoodbye_changes s' mail.1)).trans (close_changes _ mail.1 .oversized)
    case h_3 e s' _ result =>
      rw [result] at sent
      exact sent

theorem isSome_foldl_keepAliveOne (s : Server) (ids : List ConnectionId) (k : ConnectionId) :
    ((ids.foldl keepAliveOne s).lobby.peers.find? k).isSome = (s.lobby.peers.find? k).isSome := by
  refine List.foldlRecOn ids _
    (motive := fun t : Server => (t.lobby.peers.find? k).isSome = (s.lobby.peers.find? k).isSome)
    rfl ?_
  intro t same id _
  rw [← same]
  unfold keepAliveOne
  split
  · split
    · exact PeerMap.isSome_keepAlive t.lobby.peers id k
    · rfl
  · rfl

theorem flushIn_changes (s : Server) (connections peers : List ConnectionId) :
    Changes s (s.flushIn connections peers).2 := by
  obtain ⟨map, asked⟩ := s.foldl_keepAliveOne_eq connections
  have kept := s.isSome_foldl_keepAliveOne connections
  unfold flushIn
  refine List.foldlRecOn (s.builds connections peers) _
    (motive := fun acc : Nat × Server => Changes s acc.2) ?_ ?_
  · rw [asked] at kept ⊢
    exact changes_peers fun k => (PeerMap.isSome_flushEach peers map k).trans (kept k)
  · intro acc changes mail _
    exact changes.trans (sendEnvelope_changes acc mail)

/-! ## Datagrams -/

theorem perform_changes (id : ConnectionId) (call : Call ServerHandler) (s : Server) :
    Changes s ((receiver id).perform call s) := by
  have relayed (c : Command) : Changes s (s.relay id c) :=
    changes_peers (PeerMap.isSome_enqueueAll c _ s.lobby.peers)
  have delivered (d : Delivery) : Changes s (s.deliver d) :=
    changes_aside rfl rfl (Lobby.quiet_refl s.lobby)
  match call with
  | .guaranteed .peers _ => exact .refl
  | .guaranteed .relay c => exact relayed c
  | .acknowledge ack => exact changes_peers (PeerMap.isSome_enqueue s.lobby.peers id ack)
  | .unreliable .peers c => exact changes_peers (PeerMap.isSome_heed s.lobby.peers id c)
  | .guaranteed (.application _) _ | .unreliable (.application _) _ => exact delivered _
  | .unreliable .relay c =>
    simp only [receiver]
    split
    · exact relayed c
    · exact .refl

theorem routeEnvelope_changes (s : Server) (c : Connection) (e : Envelope) :
    Changes s (s.routeEnvelope c e).2 := by
  have performed (calls : List (Call ServerHandler)) :
      Changes s ((receiver c.id).performAll calls s) :=
    (receiver c.id).performAll_induct .refl fun call _ s' changes =>
      changes.trans (perform_changes c.id call s')
  simp only [routeEnvelope, Receiver.receive_eq]
  refine .tail ?_ (.note _ c.id _ fun _ => ⟨rfl, rfl, rfl⟩)
  split
  · exact performed _
  · exact .refl

theorem routeControl_changes {c : Connection} (live : s.connection? c.id = some c)
    (f : ControlFrame) :
    Changes s (s.routeControl c f).2 := by
  have accepted : Changes s
      { s with lobby := s.lobby.modify c.id fun _ => (c.accept f.order f.confirms).2 } := by
    rw [modify_congr (g := fun c => (c.accept f.order f.confirms).2) live rfl]
    exact .single (.accept s c.id f.order f.confirms)
  unfold routeControl
  dsimp only
  split
  · exact accepted
  · exact accepted.trans (close_changes _ c.id .kicked)
  · exact accepted

theorem routeConnected_changes {c : Connection} (live : s.connection? c.id = some c) (body : Body) :
    Changes s (s.routeConnected c body).2 := by
  cases body with
  | control f => exact routeControl_changes live f
  | envelope e => exact routeEnvelope_changes s c e
  | register | disconnect => exact close_changes s c.id .graceful

theorem refuse_changes (s : Server) (endpoint : Address) (reason : String) :
    Changes s (s.refuse endpoint reason) := by
  have reported : Changes s { s with lobby := s.lobby.report (.denied endpoint reason) } :=
    changes_aside rfl rfl (Lobby.quiet_report rfl)
  exact reported.tail (.send _ endpoint (.numbered 0 _) (.refusal endpoint reason))

theorem routeHello_changes (s : Server) (endpoint : Address) (token : OrderNumber) (hello : Hello)
    (other : Routed.registered? (s.routeHello endpoint token hello).1 = none) :
    Changes s (s.routeHello endpoint token hello).2 := by
  have answered : Lobby.completedId? (s.lobby.register endpoint token hello s.now).1 = none →
      Changes s { s with lobby := (s.lobby.register endpoint token hello s.now).2 } :=
    fun opens => .single (.answer s (.hello endpoint token hello s.now) opens)
  unfold routeHello at other ⊢
  generalize s.lobby.register endpoint token hello s.now = answer at answered other
  obtain ⟨result, lobby⟩ := answer
  dsimp only at answered other ⊢
  split at other
  case h_1 => cases other
  case h_2 | h_3 => exact answered rfl
  case h_4 id => exact (answered rfl).tail (.note { s with lobby } id _ fun _ => ⟨rfl, rfl, rfl⟩)
  case h_5 reason => exact (answered rfl).trans (refuse_changes { s with lobby } endpoint reason)
  case h_6 e => exact (answered rfl).trans (changes_aside rfl rfl (Lobby.quiet_report rfl))

/-- Whatever a datagram leads to that completes no connection. -/
theorem route_changes (keyed : s.lobby.registry.Keyed) (endpoint : Address) (bytes : List UInt8)
    (other : Routed.registered? (s.route endpoint bytes).1 = none) :
    Changes s (s.route endpoint bytes).2 := by
  unfold route at other ⊢
  cases decoded : Wire.decode bytes with
  | error => exact .refl
  | ok p =>
    simp only [decoded] at other ⊢
    by_cases valid : p.header.isValid
    · simp only [valid, if_true] at other ⊢
      obtain ⟨header, body⟩ := p
      unfold routePacket at other ⊢
      cases body with
      | register hello => exact routeHello_changes s endpoint _ hello other
      | envelope | control | disconnect =>
        dsimp only
        cases found : s.lobby.registry.connectionAt? endpoint with
        | none => exact .refl
        | some c =>
          have touched : Changes s { s with lobby := s.lobby.modify c.id (·.touch s.now) } :=
            .single (.note s c.id _ fun _ => ⟨rfl, rfl, rfl⟩)
          have live : { s with lobby := s.lobby.modify c.id (·.touch s.now) }.connection?
              (c.touch s.now).id =
              some (c.touch s.now) :=
            connection?_touch (connection?_of_connectionAt? keyed found) s.now
          exact touched.trans (routeConnected_changes live _)
    · simp only [valid]
      exact .refl

end DatagramSession.Server
