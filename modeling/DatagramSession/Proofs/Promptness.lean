import DatagramSession.Proofs.Partings
import DatagramSession.Proofs.Refusals
/-!
# Peers, queues and the last envelope

A flush looks at three things that are kept in different places: the live connections, the peers,
and the time at which a connection was last sent an envelope.  `Lobby.Prompt` relates them to each
other and to a record of these times: the peers are the live connections, a peer is asked for an
envelope exactly if something is queued for it, and each connection has the time of the record.
Whatever happens between flushes keeps it, a datagram that opens a connection with the time of its
registration (`Server.prompt_route`).
-/
namespace DatagramSession

/-- An envelope is asked for exactly if something is queued. -/
def Outbound.Candid (o : Outbound) : Prop :=
  o.asked = true ↔ o.guaranteed ≠ [] ∨ o.unreliable ≠ []

namespace PeerSlot

def Candid (slot : PeerSlot) : Prop :=
  ∀ o ∈ slot, o.Candid

theorem candid_none : Candid none :=
  nofun

theorem candid_connected : Candid connected := by
  intro o fresh
  cases fresh
  simp [Outbound.Candid]

variable {slot : PeerSlot}

theorem Candid.enqueue (h : slot.Candid) (c : Command) : (slot.enqueue c).2.Candid := by
  unfold PeerSlot.enqueue
  split
  case isTrue =>
    intro o' mem
    obtain ⟨o, _, rfl⟩ := Option.map_eq_some_iff.1 mem
    unfold Outbound.push
    split <;> simp [Outbound.Candid]
  case isFalse => exact h

theorem Candid.heed (h : slot.Candid) (c : Command) : (slot.heed c).Candid := by
  unfold PeerSlot.heed
  split
  case h_1 order _ =>
    cases slot with
    | none => exact candid_none
    | some o =>
      rintro o' ⟨⟩
      exact h o rfl
  case h_2 => exact h

end PeerSlot

namespace Lobby

/-- A peer is asked for an envelope exactly if something is queued for it, and each connection was
last sent one at the time of the record. -/
structure Timed (served : ConnectionId → Instant) (l : Lobby) : Prop where
  keyed : l.registry.Keyed
  candid : ∀ k, PeerSlot.Candid (l.peers.find? k)
  sent : ∀ k c, l.registry.connection? k = some c → c.lastSent = served k

/-- Besides, the peers are the live connections. -/
structure Prompt (served : ConnectionId → Instant) (l : Lobby) : Prop extends Timed served l where
  listens : .peers ∈ l.watchers
  paired : ∀ k, (l.peers.find? k).isSome = (l.registry.connection? k).isSome

section
variable {served : ConnectionId → Instant} {l l' : Lobby}

theorem Timed.of_eq (h : l.Timed served)
    (connections : l'.registry.connections = l.registry.connections) (peers : l'.peers = l.peers) :
    l'.Timed served := by
  have same (k : ConnectionId) : l'.registry.connection? k = l.registry.connection? k :=
    congrArg (Table.find? · k) connections
  exact ⟨fun k c live => h.keyed k c (same k ▸ live), peers ▸ h.candid,
    fun k c live => h.sent k c (same k ▸ live)⟩

theorem Timed.modify (h : l.Timed served) (id : ConnectionId) {f : Connection → Connection}
    (same : ∀ c, (f c).id = c.id ∧ (f c).lastSent = c.lastSent) : (l.modify id f).Timed served := by
  have before {k : ConnectionId} {c : Connection}
      (live : (l.modify id f).registry.connection? k = some c) :
      ∃ c₀, l.registry.connection? k = some c₀ ∧ c.id = c₀.id ∧ c.lastSent = c₀.lastSent := by
    have found := Table.find?_modify l.registry.connections id k f
    have found : some c = if id = k then (l.registry.connection? k).map f else
        l.registry.connection? k :=
      live.symm.trans found
    split at found
    · obtain ⟨c₀, live₀, rfl⟩ := Option.map_eq_some_iff.1 found.symm
      exact ⟨c₀, live₀, same c₀⟩
    · exact ⟨c, found.symm, rfl, rfl⟩
  refine ⟨fun k c live => ?_, h.candid, fun k c live => ?_⟩
  · obtain ⟨c₀, live₀, own, _⟩ := before live
    exact own.trans (h.keyed k c₀ live₀)
  · obtain ⟨c₀, live₀, _, last⟩ := before live
    exact last.trans (h.sent k c₀ live₀)

theorem Timed.atPeer {α : Type} (h : l.Timed served) (id : ConnectionId)
    {f : PeerSlot → α × PeerSlot} (candid : ∀ slot, slot.Candid → (f slot).2.Candid) :
    Timed served { l with peers := (l.peers.atPeer id f).2 } := by
  refine ⟨h.keyed, fun k => ?_, h.sent⟩
  rw [PeerMap.find?_atPeer]
  split
  · exact candid _ (h.candid k)
  · exact h.candid k

theorem Prompt.of_eq (h : l.Prompt served) (listens : .peers ∈ l'.watchers)
    (connections : l'.registry.connections = l.registry.connections) (peers : l'.peers = l.peers) :
    l'.Prompt served := by
  refine ⟨h.toTimed.of_eq connections peers, listens, fun k => ?_⟩
  rw [peers, h.paired, Registry.connection?, Registry.connection?, connections]

theorem Prompt.modify (h : l.Prompt served) (id : ConnectionId) {f : Connection → Connection}
    (same : ∀ c, (f c).id = c.id ∧ (f c).lastSent = c.lastSent) :
    (l.modify id f).Prompt served := by
  refine ⟨h.toTimed.modify id same, h.listens, fun k => (h.paired k).trans ?_⟩
  show _ = (Table.find? (l.registry.connections.modify id f) k).isSome
  rw [Table.find?_modify]
  split
  · exact Option.isSome_map.symm
  · rfl

theorem Prompt.atPeer {α : Type} (h : l.Prompt served) (id : ConnectionId)
    {f : PeerSlot → α × PeerSlot} (kept : ∀ slot, (f slot).2.isSome = slot.isSome)
    (candid : ∀ slot, slot.Candid → (f slot).2.Candid) :
    Prompt served { l with peers := (l.peers.atPeer id f).2 } :=
  ⟨h.toTimed.atPeer id candid, h.listens,
    fun k => (PeerMap.isSome_atPeer kept k).trans (h.paired k)⟩

theorem Prompt.enqueue (h : l.Prompt served) (id : ConnectionId) (c : Command) :
    Prompt served { l with peers := (l.peers.enqueue id c).2 } :=
  h.atPeer id (PeerSlot.isSome_enqueue c) fun _ candid => candid.enqueue c

theorem Prompt.enqueueAll (h : l.Prompt served) (c : Command) (ids : List ConnectionId) :
    Prompt served { l with peers := (PeerMap.enqueueAll c ids l.peers).2 } := by
  induction ids generalizing l with
  | nil => exact h
  | cons id rest ih => exact ih (h.enqueue id c)

/-- A connection that is closed leaves the registry and the peers. -/
theorem Prompt.close (h : l.Prompt served) (id : ConnectionId) (reason : DisconnectReason) :
    (l.close id reason).2.Prompt served := by
  cases live : l.registry.connection? id with
  | none =>
    rw [close_of_absent live]
    exact h
  | some c =>
    rw [close_eq live (h.keyed id c live), if_pos h.listens]
    have before {k : ConnectionId} {c : Connection}
        (left : (l.registry.remove id).2.connection? k = some c) :
        l.registry.connection? k = some c := (Registry.connection?_remove_eq_some.1 left).2
    refine ⟨⟨fun k c left => h.keyed k c (before left), fun k => ?_,
      fun k c left => h.sent k c (before left)⟩, h.listens, fun k => ?_⟩
    · rw [Table.find?_erase]
      split
      · exact PeerSlot.candid_none
      · exact h.candid k
    · rw [Registry.connection?_remove, Table.find?_erase]
      split
      · rfl
      · exact h.paired k

theorem Prompt.expirePending (h : l.Prompt served) (now : Instant) (timeout : Duration) :
    (l.expirePending now timeout).2.Prompt served := by
  obtain ⟨pending, tokens, result, _⟩ := l.registry.expirePending_eq now timeout
  have registry : (l.expirePending now timeout).2.registry = { l.registry with pending, tokens } :=
    result
  exact h.of_eq h.listens (by rw [registry]) rfl

/-! ## New connections -/

/-- The record with the time of a registration. -/
def withOpened (served : ConnectionId → Instant) (id? : Option ConnectionId) (now : Instant) :
    ConnectionId → Instant :=
  fun k => if id? = some k then now else served k

theorem Timed.announce (h : l.Timed served) (c : Connection) (now : Instant) :
    (l.announce c now).Timed served := by
  refine List.foldlRecOn l.watchers _ (motive := Timed served) h ?_
  intro l' h watcher _
  cases watcher with
  | peers =>
    refine ⟨h.keyed, fun k => ?_, h.sent⟩
    simp only [announceTo, PeerMap.add]
    split
    · exact h.candid k
    · rw [Table.find?_insert]
      split
      · exact PeerSlot.candid_connected
      · exact h.candid k
  | greeter =>
    have noted := h.modify c.id (f := (·.setAttribute joinedAt (.instant now))) fun _ => ⟨rfl, rfl⟩
    exact noted.atPeer c.id fun _ candid => candid.enqueue (greeting c.id)
  | events | record => exact h.of_eq rfl rfl

/-- The peers hear of a new connection. -/
theorem isSome_announce (listens : .peers ∈ l.watchers) (c : Connection) (now : Instant)
    (k : ConnectionId) :
    ((l.announce c now).peers.find? k).isSome =
      (decide (c.id = k) || (l.peers.find? k).isSome) := by
  have told (watchers : List Watcher) (l : Lobby) :
      ((watchers.foldl (announceTo c now) l).peers.find? k).isSome =
        (decide (.peers ∈ watchers ∧ c.id = k) || (l.peers.find? k).isSome) := by
    induction watchers generalizing l with
    | nil => simp
    | cons watcher rest ih =>
      rw [List.foldl_cons, ih]
      cases watcher with
      | peers =>
        have added : ((announceTo c now l .peers).peers.find? k).isSome = _ :=
          PeerMap.isSome_add l.peers c.id k
        by_cases own : c.id = k <;> simp [added, own]
      | greeter =>
        have asked : ((announceTo c now l .greeter).peers.find? k).isSome = _ :=
          PeerMap.isSome_enqueue l.peers c.id (greeting c.id) k
        simp [asked]
      | events | record => simp [announceTo, report]
  rw [announce, told]
  simp [listens]

theorem withOpened_none (served : ConnectionId → Instant) (now : Instant) :
    withOpened served none now = served := by
  funext k
  exact if_neg nofun

/-- A connection that has been entered is introduced to the peers. -/
theorem Prompt.introduce (h : l.Prompt served) (pending : Table Nonce Draft)
    (tokens : Table Address OrderNumber) (nonce : Nonce) (address : Address) (others : List Address)
    (now : Instant) :
    ({ l with
      registry := ({ l.registry with pending, tokens }.enrol nonce address others now).2 }.introduce
        l.registry.nextId now).Prompt (withOpened served (some l.registry.nextId) now) := by
  let id := l.registry.nextId
  let c : Connection := .fresh id nonce address others now
  let entered : Lobby :=
    { l with registry := ({ l.registry with pending, tokens }.enrol nonce address others now).2 }
  have connection? (k : ConnectionId) : entered.registry.connection? k =
      if id = k then some c else l.registry.connection? k :=
    Registry.connection?_enrol _ nonce address others now k
  have timed : entered.Timed (withOpened served (some id) now) := by
    refine ⟨fun k c live => ?_, h.candid, fun k c live => ?_⟩
    · rw [connection?] at live
      split at live
      case isTrue same =>
        cases live
        exact same
      case isFalse => exact h.keyed k c live
    · rw [connection?] at live
      unfold withOpened
      split at live
      case isTrue same =>
        cases live
        rw [if_pos (congrArg some same)]
        rfl
      case isFalse other =>
        rw [if_neg fun same => other (Option.some.inj same)]
        exact h.sent k c live
  have announced : (entered.announce c now).Prompt (withOpened served (some id) now) := by
    refine ⟨timed.announce c now, ?_, fun k => ?_⟩
    · rw [(announce_spares entered c now).2.1]
      exact h.listens
    · have live := congrArg Option.isSome ((announce_alike entered c now).identities k)
      rw [Option.isSome_map, Option.isSome_map, connection?] at live
      have told : ((entered.announce c now).peers.find? k).isSome =
          (decide (id = k) || (l.peers.find? k).isSome) :=
        isSome_announce (l := entered) h.listens c now k
      rw [live, told]
      by_cases own : id = k
      · simp [own]
      · simpa [own] using h.paired k
  have introduced : entered.introduce id now =
      (entered.announce c now).modify id fun c =>
      (c.tell (.registered id)).tell .servicesReady := by
    simp only [Lobby.introduce, connection?, if_true]
    rfl
  rw [show Lobby.introduce _ _ now = _ from introduced]
  exact announced.modify id fun _ => ⟨rfl, rfl⟩

/-- Whatever becomes of a hello, the connection that it completes has its time noted. -/
theorem Prompt.register (h : l.Prompt served) (endpoint : Address) (token : OrderNumber)
    (hello : Hello) (now : Instant) :
    (l.register endpoint token hello now).2.Prompt
      (withOpened served (completedId? (l.register endpoint token hello now).1) now) := by
  cases opens : completedId? (l.register endpoint token hello now).1 with
  | none =>
    have other (id : ConnectionId) : (l.registry.register endpoint token hello now).1 ≠
        .ok (.completed id) := by
      intro completed
      simp [(l.register_alike endpoint token hello now).1, completed, completedId?] at opens
    have same : (l.register endpoint token hello now).2 =
        { l with registry := (l.registry.register endpoint token hello now).2 } :=
      congrArg Prod.snd (l.register_of_not_completed endpoint token hello now other)
    rw [same, withOpened_none]
    exact h.of_eq h.listens (l.registry.connections_register endpoint token hello now other) rfl
  | some id =>
    obtain ⟨rfl, _, pending, tokens, address, others, _, lobby⟩ :=
      l.register_completed endpoint token hello now (completedId?_eq_some opens)
    rw [lobby]
    exact h.introduce pending tokens hello.nonce address others now

/-- The time at which a hello came. -/
def Request.time : Request → Instant
  | .hello _ _ _ now => now
  | .close .. | .expire .. => 0

theorem Prompt.answer (h : l.Prompt served) (request : Request) :
    (l.answer request).Prompt (withOpened served (l.enrols? request) request.time) := by
  cases request with
  | hello endpoint token hello now => exact h.register endpoint token hello now
  | close id reason =>
    rw [show l.enrols? (.close id reason) = none from rfl, withOpened_none]
    exact h.close id reason
  | expire now timeout =>
    rw [show l.enrols? (.expire now timeout) = none from rfl, withOpened_none]
    exact h.expirePending now timeout

end

end Lobby

namespace Server

open Lobby (withOpened withOpened_none)

variable {served : ConnectionId → Instant} {s : Server}

/-! ## Goodbyes and sweeps -/

theorem prompt_sendTo (h : s.lobby.Prompt served) (c : Connection) (body : Body) :
    (s.sendTo c body).2.lobby.Prompt served :=
  h.modify c.id fun _ => ⟨rfl, rfl⟩

theorem prompt_sayGoodbye (h : s.lobby.Prompt served) (id : ConnectionId) :
    (s.sayGoodbye id).lobby.Prompt served := by
  unfold sayGoodbye
  split
  · exact prompt_sendTo h _ .disconnect
  · exact h

theorem prompt_shutdownIn (h : s.lobby.Prompt served) (order : List ConnectionId) :
    (s.shutdownIn order).lobby.Prompt served := by
  refine List.foldlRecOn order _ (motive := fun s : Server => s.lobby.Prompt served) h ?_
  intro s' h id _
  exact (prompt_sayGoodbye h id).close id .graceful

theorem prompt_sweepIn (h : s.lobby.Prompt served) (order : List ConnectionId) :
    (s.sweepIn order).2.lobby.Prompt served := by
  have swept : (order.foldl sweepOne ({}, s)).2.lobby.Prompt served := by
    refine List.foldlRecOn order _
      (motive := fun acc : SweepReport × Server => acc.2.lobby.Prompt served) h ?_
    rintro ⟨report, s'⟩ h id _
    unfold sweepOne
    dsimp only
    split
    case h_1 => exact h
    case h_2 c _ =>
      split
      · exact h.close id .timeout
      · split
        case h_1 => exact h
        case h_2 f _ =>
          have sent := prompt_sendTo h c (.control f)
          generalize s'.sendTo c (.control f) = outcome at sent
          obtain ⟨result, s''⟩ := outcome
          cases result <;> exact sent
  exact swept.expirePending _ _

/-! ## Datagrams -/

theorem prompt_perform (h : s.lobby.Prompt served) (id : ConnectionId) (call : Call ServerHandler) :
    ((receiver id).perform call s).lobby.Prompt served := by
  match call with
  | .guaranteed .peers _ | .guaranteed (.application _) _ | .unreliable (.application _) _ =>
    exact h
  | .guaranteed .relay c => exact h.enqueueAll c _
  | .acknowledge ack => exact h.enqueue id ack
  | .unreliable .peers c => exact h.atPeer id (PeerSlot.isSome_heed c) fun _ candid => candid.heed c
  | .unreliable .relay c =>
    simp only [receiver]
    split
    · exact h.enqueueAll c _
    · exact h

theorem prompt_routeEnvelope (h : s.lobby.Prompt served) (c : Connection) (e : Envelope) :
    (s.routeEnvelope c e).2.lobby.Prompt served := by
  simp only [routeEnvelope, Receiver.receive_eq]
  refine Lobby.Prompt.modify ?_ c.id fun _ => ⟨rfl, rfl⟩
  split
  · refine (receiver c.id).performAll_induct
      (motive := fun s' : Server => s'.lobby.Prompt served) h ?_
    intro call _ s' h
    exact prompt_perform h c.id call
  · exact h

theorem prompt_routeControl (h : s.lobby.Prompt served) {c : Connection}
    (live : s.connection? c.id = some c) (f : ControlFrame) :
    (s.routeControl c f).2.lobby.Prompt served := by
  have accepted : (s.lobby.modify c.id fun _ => (c.accept f.order f.confirms).2).Prompt served := by
    rw [modify_congr (g := fun c => (c.accept f.order f.confirms).2) live rfl]
    exact h.modify c.id fun _ => ⟨rfl, rfl⟩
  unfold routeControl
  dsimp only
  split
  · exact accepted
  · exact accepted.close c.id .kicked
  · exact accepted

theorem prompt_routeConnected (h : s.lobby.Prompt served) {c : Connection}
    (live : s.connection? c.id = some c) (body : Body) :
    (s.routeConnected c body).2.lobby.Prompt served := by
  cases body with
  | control f => exact prompt_routeControl h live f
  | envelope e => exact prompt_routeEnvelope h c e
  | register | disconnect => exact h.close c.id .graceful

theorem prompt_routeHello (h : s.lobby.Prompt served) (endpoint : Address) (token : OrderNumber)
    (hello : Hello) :
    (s.routeHello endpoint token hello).2.lobby.Prompt
      (withOpened served (Routed.registered? (s.routeHello endpoint token hello).1) s.now) := by
  have registered := h.register endpoint token hello s.now
  unfold routeHello
  generalize s.lobby.register endpoint token hello s.now = answer at registered
  obtain ⟨result, lobby⟩ := answer
  dsimp only at registered ⊢
  split
  case h_1 => exact registered
  case h_2 | h_3 => exact registered
  case h_4 id => exact registered.modify id fun _ => ⟨rfl, rfl⟩
  case h_5 | h_6 => exact registered.of_eq registered.listens rfl rfl

/-- Whatever arrives, a connection that it opens has its time noted. -/
theorem prompt_route (h : s.lobby.Prompt served) (endpoint : Address) (bytes : List UInt8) :
    (s.route endpoint bytes).2.lobby.Prompt
      (withOpened served (Routed.registered? (s.route endpoint bytes).1) s.now) := by
  have idle : s.lobby.Prompt (withOpened served none s.now) := by rwa [withOpened_none]
  unfold route
  cases Wire.decode bytes with
  | error => exact idle
  | ok p =>
    obtain ⟨header, body⟩ := p
    dsimp only
    split
    case isFalse => exact idle
    case isTrue =>
      cases body with
      | register hello => exact prompt_routeHello h endpoint header.sequence hello
      | envelope | control | disconnect =>
        simp only [routePacket]
        cases found : s.lobby.registry.connectionAt? endpoint with
        | none => exact idle
        | some c =>
          dsimp only
          rw [registered?_routeConnected, withOpened_none]
          have touched : (s.lobby.modify c.id (·.touch s.now)).Prompt served :=
            h.modify c.id fun _ => ⟨rfl, rfl⟩
          have live := connection?_touch (connection?_of_connectionAt? h.keyed found) s.now
          exact prompt_routeConnected (s := { s with lobby := s.lobby.modify c.id (·.touch s.now) })
            touched live _

end Server

end DatagramSession
