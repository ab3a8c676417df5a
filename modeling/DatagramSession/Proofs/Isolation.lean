import DatagramSession.Proofs.Attending
/-!
# Datagrams concern one connection

What arrives from an endpoint concerns the connection at that endpoint, if there is one.  Every
other connection is `Lobby.Untouched`: it stays live, its record stays as it is to the last field,
and so does its outbound state.  That is shown for each thing that a datagram can lead to,
handshakes included (`Lobby.untouched_register`).  What is needed of the server is that connections
know their ids and that the next id is free, which it keeps until ids wrap
(`Server.Reached.orderly`).
-/
namespace DatagramSession

namespace Registry

/-- Without a new connection the live ones stay as they are. -/
theorem connections_register (r : Registry) (endpoint : Address) (token : OrderNumber)
    (hello : Hello) (now : Instant)
    (other : ∀ id, (r.register endpoint token hello now).1 ≠ .ok (.completed id)) :
    (r.register endpoint token hello now).2.connections = r.connections := by
  have answers := r.answers_register endpoint token hello now
  generalize r.register endpoint token hello now = outcome at answers other
  cases answers with
  | apart | dropped | waits => rfl
  | completes => exact absurd rfl (other _)

/-- The duplicate of a hello is one of the connection at its endpoint. -/
theorem duplicate_register {r : Registry} {endpoint : Address} {token : OrderNumber} {hello : Hello}
    {now : Instant} {id : ConnectionId}
    (duplicate : (r.register endpoint token hello now).1 = .ok (.duplicate id)) :
    ∃ c, r.connectionAt? endpoint = some c ∧ c.id = id := by
  have exits := r.exits_register endpoint token hello now
  generalize r.register endpoint token hello now = outcome at exits duplicate
  cases exits with
  | duplicate newer c held own =>
    cases duplicate
    exact ⟨c, held, rfl⟩
  | stale | inUse | taken | violates | rejected | waits | completes => cases duplicate

end Registry

namespace Lobby

/-- What is live under an id, to the last field, and its outbound state are as before. -/
structure Untouched (k : ConnectionId) (l l' : Lobby) : Prop where
  connection : l'.registry.connection? k = l.registry.connection? k
  slot : l'.peers.find? k = l.peers.find? k

section
variable {k id : ConnectionId} {l l' l'' : Lobby}

theorem untouched_of_eq (connections : l'.registry.connections = l.registry.connections)
    (peers : l'.peers = l.peers) :
    Untouched k l l' :=
  ⟨congrArg (Table.find? · k) connections, congrArg (Table.find? · k) peers⟩

theorem untouched_refl (k : ConnectionId) (l : Lobby) : Untouched k l l :=
  untouched_of_eq rfl rfl

theorem Untouched.trans (first : Untouched k l l') (second : Untouched k l' l'') :
    Untouched k l l'' :=
  ⟨second.connection.trans first.connection, second.slot.trans first.slot⟩

theorem untouched_modify (l : Lobby) (other : id ≠ k) (f : Connection → Connection) :
    Untouched k l (l.modify id f) :=
  ⟨(Table.find?_modify _ _ _ _).trans (if_neg other), rfl⟩

theorem untouched_atPeer {α : Type} (l : Lobby) (other : id ≠ k) (f : PeerSlot → α × PeerSlot) :
    Untouched k l { l with peers := (l.peers.atPeer id f).2 } :=
  ⟨rfl, (PeerMap.find?_atPeer _ _ _ _).trans (if_neg other)⟩

/-! ## New connections -/

theorem untouched_announceTo {c : Connection} (other : c.id ≠ k) (now : Instant) (l : Lobby)
    (w : Watcher) :
    Untouched k l (announceTo c now l w) := by
  cases w with
  | peers =>
    refine ⟨rfl, ?_⟩
    simp only [announceTo, PeerMap.add]
    split
    · rfl
    · exact (Table.find?_insert _ _ _ _).trans (if_neg other)
  | greeter =>
    exact (l.untouched_modify other (·.setAttribute joinedAt (.instant now))).trans
      (untouched_atPeer _ other _)
  | events | record => exact untouched_of_eq rfl rfl

theorem untouched_introduce (own : ∀ c, l.registry.connection? id = some c → c.id = id)
    (other : id ≠ k) (now : Instant) : Untouched k l (l.introduce id now) := by
  unfold introduce
  split
  case h_1 c live =>
    have announced : Untouched k l (l.announce c now) := by
      refine List.foldlRecOn l.watchers _ (motive := Untouched k l) (untouched_refl k l) ?_
      intro l' untouched w _
      exact untouched.trans (untouched_announceTo (by rwa [own c live]) now l' w)
    exact announced.trans (untouched_modify _ other _)
  case h_2 => exact untouched_refl k l

/-- Whatever becomes of a hello, it concerns only the connection that it completes. -/
theorem untouched_register (l : Lobby) (endpoint : Address) (token : OrderNumber) (hello : Hello)
    (now : Instant) (other : ∀ id, (l.register endpoint token hello now).1 = .ok (.completed id) →
      id ≠ k) :
    Untouched k l (l.register endpoint token hello now).2 := by
  by_cases completed : ∃ id, (l.register endpoint token hello now).1 = .ok (.completed id)
  · obtain ⟨id, completed⟩ := completed
    have apart := other id completed
    obtain ⟨rfl, _, pending, tokens, address, others, _, lobby⟩ :=
      l.register_completed endpoint token hello now completed
    let entered : Lobby :=
      { l with
        registry := ({ l.registry with pending, tokens }.enrol hello.nonce address others now).2 }
    have enrolled (j : ConnectionId) : entered.registry.connection? j =
        if l.registry.nextId = j then some (.fresh l.registry.nextId hello.nonce address others now)
        else l.registry.connection? j :=
      Registry.connection?_enrol _ hello.nonce address others now j
    have own (c : Connection) (live : entered.registry.connection? l.registry.nextId = some c) :
        c.id = l.registry.nextId := by
      rw [enrolled, if_pos rfl] at live
      cases live
      rfl
    have before : Untouched k l entered := ⟨(enrolled k).trans (if_neg apart), rfl⟩
    rw [lobby]
    exact before.trans (untouched_introduce own apart now)
  · have rest (id : ConnectionId) : (l.registry.register endpoint token hello now).1 ≠
        .ok (.completed id) := by
      intro result
      exact completed ⟨id, (l.register_alike endpoint token hello now).1.trans result⟩
    have peers : (l.register endpoint token hello now).2.peers = l.peers := by
      unfold register
      dsimp only
      split
      case h_1 id result => exact absurd result (rest id)
      case h_2 => rfl
    refine untouched_of_eq ?_ peers
    rw [register_registry_of_not_completed l endpoint token hello now rest]
    exact l.registry.connections_register endpoint token hello now rest

end

/-! ## Ids -/

theorem completedId?_eq_some {result : Except RegistrationError RegistrationOutcome}
    {id : ConnectionId} (completed : completedId? result = some id) :
    result = .ok (.completed id) := by
  unfold completedId? at completed
  split at completed
  case h_1 id' =>
    cases completed
    rfl
  case h_2 => cases completed

/-- Connections know their ids, and so many of these have been handed out in order. -/
structure Orderly (l : Lobby) (n : Nat) : Prop where
  keyed : l.registry.Keyed
  numbered : l.registry.Numbered n

section
variable {l l' : Lobby} {n : Nat}

theorem Orderly.alike (h : l.Orderly n) (alike : l.registry.Alike l'.registry) : l'.Orderly n :=
  ⟨alike.keyed h.keyed, alike.numbered h.numbered⟩

theorem Orderly.answer (h : l.Orderly n) (request : Request)
    (few : n + (l.enrols? request).toList.length < UInt32.size - 1) :
    (l.answer request).Orderly (n + (l.enrols? request).toList.length) := by
  have effect := l.effect_answer request
  refine ⟨?_, effect.numbered h.numbered few⟩
  cases opens : l.enrols? request with
  | none =>
    rw [opens] at effect
    exact effect.keyed h.keyed
  | some id =>
    cases request with
    | hello endpoint token hello now =>
      exact (l.opens_register endpoint token hello now (completedId?_eq_some opens)).2.keyed h.keyed
    | close | expire => cases opens

end

end Lobby

/-- The handler that a call is to. -/
def Call.listener? {η : Type} : Call η → Option η
  | .guaranteed h _ | .unreliable h _ => some h
  | .acknowledge _ => none

/-- Only those who listen are called. -/
theorem Call.listens_of_mem_calls {η : Type} {e : Envelope} {watermark : Option OrderNumber}
    {handlers : List η} {call : Call η} (made : call ∈ e.calls watermark handlers) :
    ∀ h ∈ call.listener?, h ∈ handlers := by
  simp only [Envelope.calls, List.mem_append, List.mem_flatMap, List.mem_map] at made
  intro h called
  rcases made with (⟨c, _, h', listens, rfl⟩ | acknowledged) | ⟨c, _, h', listens, rfl⟩
  · cases called
    exact listens
  · split at acknowledged
    · rw [List.mem_singleton.1 acknowledged] at called
      cases called
    · cases acknowledged
  · cases called
    exact listens

namespace Server

section
variable {s : Server} {k id : ConnectionId} {c : Connection}

theorem untouched_close (keyed : s.lobby.registry.Keyed) (other : id ≠ k)
    (reason : DisconnectReason) :
    s.lobby.Untouched k (s.close id reason).2.lobby :=
  ⟨(s.connection?_close id reason k).trans (if_neg other), find?_close keyed other reason⟩

/-- Nothing but the relay reaches further than the connection in whose name it is called. -/
theorem untouched_perform (other : id ≠ k) {call : Call ServerHandler}
    (alone : call.listener? ≠ some .relay) (s : Server) :
    s.lobby.Untouched k ((receiver id).perform call s).lobby := by
  match call with
  | .guaranteed .peers _ => exact Lobby.untouched_refl k s.lobby
  | .guaranteed (.application _) _ | .unreliable (.application _) _ =>
    exact Lobby.untouched_of_eq rfl rfl
  | .acknowledge _ | .unreliable .peers _ => exact s.lobby.untouched_atPeer other _
  | .guaranteed .relay _ | .unreliable .relay _ => exact absurd rfl alone

theorem untouched_routeEnvelope (unrelayed : .relay ∉ s.handlers) (other : c.id ≠ k)
    (e : Envelope) :
    s.lobby.Untouched k (s.routeEnvelope c e).2.lobby := by
  simp only [routeEnvelope, Receiver.receive_eq]
  refine Lobby.Untouched.trans ?_ (Lobby.untouched_modify _ other _)
  split
  · refine (receiver c.id).performAll_induct
      (motive := fun s' : Server => s.lobby.Untouched k s'.lobby)
      (Lobby.untouched_refl k s.lobby) ?_
    intro call made s' untouched
    refine untouched.trans (untouched_perform other ?_ s')
    intro relays
    exact unrelayed (Call.listens_of_mem_calls made _ relays)
  · exact Lobby.untouched_refl k s.lobby

theorem untouched_routeControl (keyed : s.lobby.registry.Keyed) (live : s.connection? c.id = some c)
    (other : c.id ≠ k) (f : ControlFrame) : s.lobby.Untouched k (s.routeControl c f).2.lobby := by
  let accepted : Server :=
    { s with lobby := s.lobby.modify c.id fun _ => (c.accept f.order f.confirms).2 }
  have noted : s.lobby.Untouched k accepted.lobby := s.lobby.untouched_modify other _
  have still : accepted.lobby.registry.Keyed := by
    have same : accepted.lobby = s.lobby.modify c.id fun c => (c.accept f.order f.confirms).2 :=
      modify_congr live rfl
    rw [same]
    exact (Registry.alike_modify _ c.id fun _ => by rfl).keyed keyed
  unfold routeControl
  dsimp only
  split
  · exact noted
  · exact noted.trans (untouched_close (s := accepted) still other .kicked)
  · exact noted

theorem untouched_routeConnected (keyed : s.lobby.registry.Keyed) (unrelayed : .relay ∉ s.handlers)
    (live : s.connection? c.id = some c) (other : c.id ≠ k) (body : Body) :
    s.lobby.Untouched k (s.routeConnected c body).2.lobby := by
  cases body with
  | control f => exact untouched_routeControl keyed live other f
  | envelope e => exact untouched_routeEnvelope unrelayed other e
  | register | disconnect => exact untouched_close keyed other .graceful

/-- A hello concerns the connection that it completes, or the one at its endpoint. -/
theorem untouched_routeHello (endpoint : Address) (token : OrderNumber) (hello : Hello)
    (new : ∀ id, (s.lobby.register endpoint token hello s.now).1 = .ok (.completed id) → id ≠ k)
    (other : ∀ c, s.lobby.registry.connectionAt? endpoint = some c → c.id ≠ k) :
    s.lobby.Untouched k (s.routeHello endpoint token hello).2.lobby := by
  have registered := s.lobby.untouched_register endpoint token hello s.now new
  have same := (s.lobby.register_alike endpoint token hello s.now).1
  unfold routeHello
  generalize s.lobby.register endpoint token hello s.now = answer at registered same
  obtain ⟨result, lobby⟩ := answer
  dsimp only at registered same ⊢
  split
  case h_4 id =>
    obtain ⟨c, held, rfl⟩ := Registry.duplicate_register same.symm
    exact registered.trans (lobby.untouched_modify (other c held) _)
  case h_1 | h_2 | h_3 => exact registered
  case h_5 | h_6 => exact registered.trans (Lobby.untouched_of_eq rfl rfl)

/-- A datagram concerns the connection that it opens, or the one at its endpoint. -/
theorem untouched_route (keyed : s.lobby.registry.Keyed) (unrelayed : .relay ∉ s.handlers)
    (endpoint : Address) (bytes : List UInt8) (new : s.lobby.registry.nextId ≠ k)
    (other : ∀ c, s.lobby.registry.connectionAt? endpoint = some c → c.id ≠ k) :
    s.lobby.Untouched k (s.route endpoint bytes).2.lobby := by
  unfold route
  cases Wire.decode bytes with
  | error => exact Lobby.untouched_refl k s.lobby
  | ok p =>
    obtain ⟨header, body⟩ := p
    dsimp only
    split
    case isFalse => exact Lobby.untouched_refl k s.lobby
    case isTrue =>
      cases body with
      | register hello =>
        refine untouched_routeHello endpoint _ hello (fun id completed => ?_) other
        rw [(s.lobby.opens_register endpoint _ hello s.now completed).1]
        exact new
      | envelope | control | disconnect =>
        simp only [routePacket]
        cases found : s.lobby.registry.connectionAt? endpoint with
        | none => exact Lobby.untouched_refl k s.lobby
        | some c =>
          have live := connection?_touch (connection?_of_connectionAt? keyed found) s.now
          have touched : s.lobby.Untouched k (s.lobby.modify c.id (·.touch s.now)) :=
            s.lobby.untouched_modify (other c found) _
          exact touched.trans (untouched_routeConnected
            (s := { s with lobby := s.lobby.modify c.id (·.touch s.now) })
            ((Registry.alike_modify _ c.id fun _ => by rfl).keyed keyed) unrelayed live
            (other c found) _)

/-! ## Datagrams that concern nobody -/

theorem routeHello_moves (s : Server) (endpoint : Address) (token : OrderNumber) (hello : Hello) :
    (s.routeHello endpoint token hello).1 ≠ .malformed ∧
    (s.routeHello endpoint token hello).1 ≠ .unknown := by
  unfold routeHello
  dsimp only
  split <;> simp

theorem routeConnected_moves (s : Server) (c : Connection) (body : Body) :
    (s.routeConnected c body).1 ≠ .malformed ∧ (s.routeConnected c body).1 ≠ .unknown := by
  cases body with
  | control f =>
    simp only [routeConnected, routeControl]
    split <;> simp
  | register | envelope | disconnect => simp [routeConnected, routeEnvelope]

/-- A datagram that is no packet or comes from nowhere changes nothing at all. -/
theorem route_eq_self (s : Server) (endpoint : Address) (bytes : List UInt8)
    (nobody : (s.route endpoint bytes).1 = .malformed ∨ (s.route endpoint bytes).1 = .unknown) :
    (s.route endpoint bytes).2 = s := by
  unfold route at nobody ⊢
  cases decoded : Wire.decode bytes with
  | error => rfl
  | ok p =>
    obtain ⟨header, body⟩ := p
    by_cases valid : header.isValid
    · simp only [decoded, valid, if_true] at nobody ⊢
      cases body with
      | register hello =>
        exact absurd nobody (not_or.2 (s.routeHello_moves endpoint header.sequence hello))
      | envelope | control | disconnect =>
        simp only [routePacket] at nobody ⊢
        cases found : s.lobby.registry.connectionAt? endpoint with
        | none => rfl
        | some c =>
          rw [found] at nobody
          exact absurd nobody (not_or.2 (routeConnected_moves _ _ _))
    · simp only [valid]
      rfl

end

/-! ## Servers that can be reached -/

/-- A server that has come about with so many completed registrations.  More is allowed than a host,
a clock and a link can do: whatever is not in the registry may become anything. -/
inductive Reached (config : ServerConfig) : Nat → Server → Prop where
  | start : Reached config 0 (Server.start config)
  | route {n : Nat} {s : Server} (reached : Reached config n s) (endpoint : Address)
      (bytes : List UInt8) :
      Reached config (n + (Routed.registered? (s.route endpoint bytes).1).toList.length)
        (s.route endpoint bytes).2
  /-- The host turns to the registry itself. -/
  | request {n : Nat} {s : Server} (reached : Reached config n s) (request : Lobby.Request) :
      Reached config (n + (s.lobby.enrols? request).toList.length)
        { s with lobby := s.lobby.answer request }
  /-- Control messages, attributes, times or sequence numbers of a connection. -/
  | use {n : Nat} {s : Server} (reached : Reached config n s) (id : ConnectionId)
      (f : Connection → Connection) (same : ∀ c, (f c).identity = c.identity) :
      Reached config n { s with lobby := s.lobby.modify id f }
  /-- Commands, handlers, listeners, all that the host takes, the time or the link. -/
  | aside {n : Nat} {s s' : Server} (reached : Reached config n s)
      (registry : s'.lobby.registry = s.lobby.registry) : Reached config n s'

section
variable {config : ServerConfig} {n : Nat} {s s' : Server}

theorem Reached.changes (reached : Reached config n s) (changes : Changes s s') :
    Reached config n s' := by
  induction changes with
  | refl => exact reached
  | tail _ change ih =>
    cases change with
    | aside registry => exact ih.aside registry
    | note id f kept => exact ih.use id f fun c => (kept c).1
    | accept id order confirm => exact ih.use id _ fun _ => by rfl
    | send => exact ih.aside rfl
    | answer request opens => simpa [opens] using ih.request request

/-- Whatever a host does leads to servers that can be reached. -/
theorem Reached.does (reached : Reached config n s) (does : Does s s') : Reached config n s' := by
  cases does with
  | tell id m => exact reached.use id _ fun _ => by rfl
  | kick id reason => exact reached.use id _ fun _ => by rfl
  | close id reason => exact reached.changes (close_changes s id reason)
  | shutdown => exact reached.changes (shutdown_changes s)
  | sweep order => exact reached.changes (sweepIn_changes s order)
  | flush connections peers => exact reached.changes (flushIn_changes s connections peers)
  | enqueue | broadcast | addHandler | removeHandler | introduce | addWatcher | takeEvents
  | takeDeliveries | elapse
  | relink => exact reached.aside (by rfl)

theorem Change.orderly (change : Change s s') (few : n < UInt32.size - 1) (h : s.lobby.Orderly n) :
    s'.lobby.Orderly n := by
  cases change with
  | aside registry => exact h.alike (registry ▸ Registry.alike_refl _)
  | note id f kept => exact h.alike (Registry.alike_modify _ id fun c => (kept c).1)
  | accept id order confirm => exact h.alike (Registry.alike_modify _ id fun _ => by rfl)
  | send => exact h
  | answer request opens => simpa [opens] using h.answer request (by simpa [opens] using few)

theorem Changes.orderly (changes : Changes s s') (few : n < UInt32.size - 1)
    (h : s.lobby.Orderly n) :
    s'.lobby.Orderly n := by
  induction changes with
  | refl => exact h
  | tail _ change ih => exact change.orderly few ih

theorem orderly_route (h : s.lobby.Orderly n) (endpoint : Address) (bytes : List UInt8)
    (few : n + (Routed.registered? (s.route endpoint bytes).1).toList.length < UInt32.size - 1) :
    (s.route endpoint bytes).2.lobby.Orderly
      (n + (Routed.registered? (s.route endpoint bytes).1).toList.length) := by
  cases registered : Routed.registered? (s.route endpoint bytes).1 with
  | none =>
    rw [registered] at few
    exact (route_changes h.keyed endpoint bytes registered).orderly few h
  | some id =>
    obtain ⟨token, hello, completed, result⟩ := route_opens endpoint registered
    have opens : s.lobby.enrols? (.hello endpoint token hello s.now) = some id := by
      simp only [Lobby.enrols?, completed, Lobby.completedId?]
    have answered := h.answer (.hello endpoint token hello s.now)
    rw [opens, ← registered] at answered
    rw [← registered, result]
    exact answered few

theorem Reached.orderly (reached : Reached config n s) (few : n < UInt32.size - 1) :
    s.lobby.Orderly n := by
  induction reached with
  | start => exact ⟨nofun, rfl, nofun⟩
  | route _ endpoint bytes ih =>
    exact orderly_route (ih (Nat.lt_of_le_of_lt (Nat.le_add_right _ _) few)) endpoint bytes few
  | request _ request ih =>
    exact (ih (Nat.lt_of_le_of_lt (Nat.le_add_right _ _) few)).answer request few
  | use _ id f same ih => exact (ih few).alike (Registry.alike_modify _ id same)
  | aside _ registry ih => exact (ih few).alike (registry ▸ Registry.alike_refl _)

/-- Until ids wrap, and unless commands are relayed, a datagram leaves every connection but the one
at its endpoint as it is: the connection stays live, and neither its record nor its outbound state
changes.  A datagram that is no packet, or neither a hello nor from the endpoint of a connection,
changes nothing at all. -/
theorem route_isolated (reached : Reached config n s) (few : n < UInt32.size - 1)
    (unrelayed : .relay ∉ s.handlers) (endpoint : Address) (bytes : List UInt8) :
    (∀ k c, s.connection? k = some c → s.lobby.registry.connectionAt? endpoint ≠ some c →
      (s.route endpoint bytes).2.connection? k = some c ∧
      (s.route endpoint bytes).2.lobby.peers.find? k = s.lobby.peers.find? k) ∧
    ((s.route endpoint bytes).1 = .malformed ∨ (s.route endpoint bytes).1 = .unknown →
      (s.route endpoint bytes).2 = s) := by
  have h := reached.orderly few
  refine ⟨fun k c live elsewhere => ?_, s.route_eq_self endpoint bytes⟩
  have new : s.lobby.registry.nextId ≠ k := by
    rintro rfl
    cases live.symm.trans h.numbered.fresh
  have other (c' : Connection) (found : s.lobby.registry.connectionAt? endpoint = some c') :
      c'.id ≠ k := by
    rintro rfl
    have same := live.symm.trans (connection?_of_connectionAt? h.keyed found)
    exact elsewhere (found.trans same.symm)
  have untouched := untouched_route h.keyed unrelayed endpoint bytes new other
  exact ⟨untouched.connection.trans live, untouched.slot⟩

/-- Two clients, to both of which a command is sent.  The first says goodbye; the second is still to
confirm the command and two control messages. -/
theorem route_isolated_goodbye :
    let first : Address := ⟨.v4 167772162, 50000⟩
    let second : Address := ⟨.v4 167772162, 50001⟩
    let bytes (body : Body) : List UInt8 := (Wire.encode (.numbered 1 body)).toOption.getD []
    let hello (nonce : Nonce) : Body :=
      .register { nonce, channel := 0, game := defaultGame, version := 1 }
    let both := (((start {}).route first (bytes (hello 7))).2.route second (bytes (hello 8))).2
    let s := ((both.broadcast (.message .guaranteed 1 [170])).2.flushIn [1, 2] [1, 2]).2
    let after := (s.route first (bytes .disconnect)).2
    s.ids = [1, 2] ∧ after.ids = [2] ∧
      (after.connection? 2).map Connection.pendingControl = some 2 ∧
      PeerMap.unconfirmed after.lobby.peers 2 = 1 := by
  intro first second bytes hello both s after
  have reached : Reached {} _ s :=
    ((Reached.start.route first (bytes (hello 7))).route second (bytes (hello 8))).does
      (.broadcast _ _) |>.does (.flush _ [1, 2] [1, 2])
  obtain ⟨c, live⟩ : ∃ c, s.connection? 2 = some c := Option.isSome_iff_exists.1 (by decide +kernel)
  have elsewhere : s.lobby.registry.connectionAt? first ≠ some c := by
    intro here
    have own : (s.lobby.registry.connectionAt? first).map Connection.id = some 1 := by
      decide +kernel
    have second : (s.connection? 2).map Connection.id = some 2 := by decide +kernel
    rw [here] at own
    rw [live] at second
    exact absurd (own.symm.trans second) (by decide)
  obtain ⟨still, slot⟩ := (route_isolated reached (by decide +kernel) (by decide +kernel) first
    (bytes .disconnect)).1 2 c live elsewhere
  refine ⟨by decide +kernel, by decide +kernel, ?_, ?_⟩
  · rw [still, ← live]
    decide +kernel
  · rw [PeerMap.unconfirmed, slot]
    decide +kernel

end

end Server
end DatagramSession
