import DatagramSession.Proofs.Heads
import DatagramSession.Proofs.Oversized
import DatagramSession.Proofs.Tending
/-!
# Servers that attend to a connection

`Server.Attends` is what a server keeps for a live connection that has its endpoint to itself and is
not to be kicked: when it was last heard from and last sent an envelope, and that what goes out to
its endpoint are envelopes and control messages.  A sweep leaves such a connection alone unless it
has been silent for too long (`Attends.sweepIn`), a flush sends it an envelope or finds that it was
sent one lately (`Attends.flushIn`), and a datagram from its endpoint counts as a sign of life
(`Attends.route`).
-/
namespace DatagramSession

/-- What one party knows of its session with another one: the timeout, the time, when it last heard
from the other party and when it last sent it an envelope. -/
structure Times where
  timeout : Duration
  now : Instant
  heard : Instant
  said : Instant

/-- What the two parties of a session tell each other while neither wants to end it. -/
inductive Body.Friendly : Body → Prop where
  | envelope (e : Envelope) : Friendly (.envelope e)
  | control {f : ControlFrame} (stays : ∀ reason, f.message ≠ .kick reason) : Friendly (.control f)

/-- A datagram with such a body. -/
def Wire.Friendly (bytes : List UInt8) : Prop :=
  ∃ sequence body, decode bytes = .ok (.numbered sequence body) ∧ body.Friendly

theorem Wire.friendly_of_encode {sequence : UInt32} {body : Body} {bytes : List UInt8}
    (friendly : body.Friendly) (encoded : encode (.numbered sequence body) = .ok bytes) :
    Friendly bytes :=
  ⟨sequence, body, (decode_of_encode_eq_ok encoded).2, friendly⟩

namespace Server

/-- The server has a live connection at an endpoint that is no other's. -/
structure Attends (endpoint : Address) (k : ConnectionId) (t : Times) (s : Server) : Prop where
  keyed : s.lobby.registry.Keyed
  sole : ∀ id, s.lobby.registry.byEndpoint.find? endpoint = some id ↔
    ∃ c, s.connection? id = some c ∧ endpoint ∈ c.endpoints
  live : ∃ c, s.connection? k = some c ∧ c.address = endpoint ∧
    (∀ reason, .kick reason ∉ c.control.waiting) ∧
    c.lastReceived = t.heard ∧ c.lastSent = t.said
  slot : (s.lobby.peers.find? k).isSome = true
  mail : ∀ d ∈ s.transport.sent, d.target = endpoint → Wire.Friendly d.bytes
  link : ∀ d, d.target = endpoint → s.transport.refuses d = false
  clock : s.now = t.now ∧ s.config.livenessTimeout = t.timeout

section
variable {endpoint : Address} {k id : ConnectionId} {t : Times} {s s' : Server}

theorem Attends.eq_of_mem (h : s.Attends endpoint k t) {c : Connection}
    (live : s.connection? id = some c) (has : endpoint ∈ c.endpoints) : id = k := by
  obtain ⟨own, lives, address, _⟩ := h.live
  have first := (h.sole id).2 ⟨c, live, has⟩
  rw [(h.sole k).2 ⟨own, lives, address ▸ List.mem_cons_self⟩] at first
  exact (Option.some.inj first).symm

theorem Attends.of_eq (h : s.Attends endpoint k t)
    (connections : s'.lobby.registry.connections = s.lobby.registry.connections)
    (byEndpoint : s'.lobby.registry.byEndpoint = s.lobby.registry.byEndpoint)
    (transport : s'.transport = s.transport)
    (slot : (s'.lobby.peers.find? k).isSome = (s.lobby.peers.find? k).isSome)
    (clock : s'.now = s.now ∧ s'.config = s.config) : s'.Attends endpoint k t := by
  have same (id : ConnectionId) : s'.connection? id = s.connection? id :=
    congrArg (·.find? id) connections
  constructor
  case keyed => exact fun id c live => h.keyed id c ((same id).symm.trans live)
  case sole =>
    intro id
    rw [byEndpoint, same]
    exact h.sole id
  case live =>
    rw [same]
    exact h.live
  case slot => exact slot.trans h.slot
  case mail => exact transport ▸ h.mail
  case link => exact transport ▸ h.link
  case clock =>
    rw [clock.1, clock.2]
    exact h.clock

/-- Outbound states have changed. -/
theorem Attends.peers (h : s.Attends endpoint k t) {peers : PeerMap ConnectionId}
    (slot : (peers.find? k).isSome = (s.lobby.peers.find? k).isSome) :
    { s with lobby := { s.lobby with peers } }.Attends endpoint k t :=
  h.of_eq rfl rfl rfl slot ⟨rfl, rfl⟩

theorem Attends.elapse (h : s.Attends endpoint k t) (d : Duration) :
    (s.elapse d).Attends endpoint k { t with now := t.now + d } :=
  ⟨h.keyed, h.sole, h.live, h.slot, h.mail, h.link, congrArg (· + d) h.clock.1, h.clock.2⟩

/-- Some datagrams of the outbox have been taken. -/
theorem Attends.relink (h : s.Attends endpoint k t) {rest : List Datagram}
    (fewer : rest ⊆ s.transport.sent) :
    { s with transport := { s.transport with sent := rest } }.Attends endpoint k t :=
  ⟨h.keyed, h.sole, h.live, h.slot, fun d mem => h.mail d (fewer mem), h.link, h.clock⟩

/-- Something is noted about a connection. -/
theorem Attends.modify (h : s.Attends endpoint k t) {f : Connection → Connection}
    {heard said : Instant} (same : ∀ c, (f c).identity = c.identity)
    (other : id ≠ k → heard = t.heard ∧ said = t.said)
    (own : ∀ c, id = k → s.connection? k = some c → c.lastReceived = t.heard → c.lastSent = t.said →
      (f c).control.waiting ⊆ c.control.waiting ∧ (f c).lastReceived = heard ∧
        (f c).lastSent = said) :
    { s with lobby := s.lobby.modify id f }.Attends endpoint k { t with heard, said } := by
  have alike := Registry.alike_modify s.lobby.registry id same
  obtain ⟨c, live, address, kept, received, sent⟩ := h.live
  constructor
  case keyed => exact alike.keyed h.keyed
  case sole =>
    intro id'
    exact (h.sole id').trans alike.endpoint
  case live =>
    rw [connection?_modify]
    split
    case isTrue own_id =>
      obtain ⟨waiting, received', sent'⟩ := own c own_id live received sent
      refine ⟨f c, by rw [live]; rfl, ?_, fun reason waits => kept reason (waiting waits),
        received', sent'⟩
      rw [address_eq_of_identity (same c), address]
    case isFalse other_id =>
      obtain ⟨rfl, rfl⟩ := other other_id
      exact ⟨c, live, address, kept, received, sent⟩
  case slot => exact h.slot
  case mail => exact h.mail
  case link => exact h.link
  case clock => exact h.clock

/-- Something is noted that has nothing to do with the times. -/
theorem Attends.note (h : s.Attends endpoint k t) {f : Connection → Connection}
    (same : ∀ c, (f c).identity = c.identity ∧ (f c).control = c.control)
    (times : ∀ c, (f c).lastReceived = c.lastReceived ∧ (f c).lastSent = c.lastSent) :
    { s with lobby := s.lobby.modify id f }.Attends endpoint k t := by
  apply h.modify (fun c => (same c).1) fun _ => ⟨rfl, rfl⟩
  intro c _ _ received sent
  exact ⟨by rw [(same c).2]; exact List.Subset.refl _, (times c).1.trans received,
    (times c).2.trans sent⟩

/-- Closing a connection takes away the outbound state of its own peer only. -/
theorem find?_close (keyed : s.lobby.registry.Keyed) (other : id ≠ k) (reason : DisconnectReason) :
    (s.close id reason).2.lobby.peers.find? k = s.lobby.peers.find? k := by
  show (s.lobby.close id reason).2.peers.find? k = _
  unfold Lobby.close Registry.remove
  cases live : s.lobby.registry.connection? id with
  | none => rfl
  | some c =>
    refine List.foldlRecOn s.lobby.watchers _
      (motive := fun l : Lobby => l.peers.find? k = s.lobby.peers.find? k) rfl ?_
    intro l same watcher _
    cases watcher with
    | peers =>
      have own : c.markClosed.id = id := keyed id c live
      simp only [Lobby.farewellTo, PeerMap.remove, Table.find?_erase, own, other, if_false]
      exact same
    | events | greeter | record => exact same

/-- Another connection is closed. -/
theorem Attends.close (h : s.Attends endpoint k t) (other : id ≠ k) (reason : DisconnectReason) :
    (s.close id reason).2.Attends endpoint k t := by
  obtain ⟨c, live, attended⟩ := h.live
  have registry : (s.close id reason).2.lobby.registry = (s.lobby.registry.remove id).2 :=
    s.lobby.close_registry id reason
  constructor
  case keyed =>
    intro id' c' live'
    rw [registry, Registry.connection?_remove] at live'
    split at live'
    · cases live'
    · exact h.keyed id' c' live'
  case sole =>
    intro id'
    rw [registry, connection?_close]
    cases leaves : s.lobby.registry.connection? id with
    | none =>
      rw [Registry.remove_of_absent leaves, h.sole id']
      split
      case isTrue same =>
        have absent : s.connection? id = none := leaves
        rw [← same, absent]
      case isFalse => rfl
    | some c' =>
      have foreign : endpoint ∉ c'.endpoints := fun has => other (h.eq_of_mem leaves has)
      rw [Registry.byEndpoint_remove _ leaves, if_neg foreign, h.sole id']
      split
      case isTrue same =>
        have present : s.connection? id = some c' := leaves
        rw [← same, present]
        simp [foreign]
      case isFalse => rfl
  case live =>
    rw [connection?_close, if_neg other]
    exact ⟨c, live, attended⟩
  case slot => rw [find?_close h.keyed other, h.slot]
  case mail => exact h.mail
  case link => exact h.link
  case clock => exact h.clock

/-- A datagram goes out. -/
theorem Attends.send (h : s.Attends endpoint k t) {target : Address} {sequence : UInt32}
    {body : Body} (friendly : target = endpoint → body.Friendly) :
    (s.send target (.numbered sequence body)).2.Attends endpoint k t := by
  constructor
  case keyed => exact h.keyed
  case sole => exact h.sole
  case live => exact h.live
  case slot => exact h.slot
  case mail =>
    intro d mem toward
    rcases s.transport.sent_send target (.numbered sequence body) with same | ⟨bytes, encoded, more⟩
    · exact h.mail d (same ▸ mem) toward
    · have sent : d ∈ s.transport.sent ++ [⟨target, bytes⟩] := more ▸ mem
      rcases List.mem_append.1 sent with old | new
      · exact h.mail d old toward
      · rw [List.mem_singleton.1 new] at toward ⊢
        exact Wire.friendly_of_encode (friendly toward) encoded
  case link =>
    intro d toward
    have same := s.transport.refuses_send target (.numbered sequence body)
    exact (congrFun same d).trans (h.link d toward)
  case clock => exact h.clock

theorem Attends.sendTo (h : s.Attends endpoint k t) {c : Connection}
    (live : s.connection? id = some c) {body : Body} (friendly : id = k → body.Friendly) :
    (s.sendTo c body).2.Attends endpoint k t := by
  have noted :
      { s with lobby := s.lobby.modify c.id fun c => c.nextSequence.2 }.Attends endpoint k t :=
    h.note (fun _ => ⟨rfl, rfl⟩) fun _ => ⟨rfl, rfl⟩
  apply noted.send
  intro toward
  exact friendly (h.eq_of_mem live (toward ▸ List.mem_cons_self))

/-- Another connection is told goodbye and closed. -/
theorem Attends.leave (h : s.Attends endpoint k t) (other : id ≠ k) (reason : DisconnectReason) :
    ((s.sayGoodbye id).close id reason).2.Attends endpoint k t := by
  apply Attends.close _ other
  unfold sayGoodbye
  split
  case h_1 c live => exact h.sendTo live fun same => absurd same other
  case h_2 => exact h

/-! ## Sweeps -/

theorem Attends.sweepOne {acc : SweepReport × Server} (h : acc.2.Attends endpoint k t)
    (inTime : t.now - t.heard ≤ t.timeout) (id : ConnectionId) :
    (Server.sweepOne acc id).2.Attends endpoint k t := by
  obtain ⟨report, s⟩ := acc
  unfold Server.sweepOne
  dsimp only at h ⊢
  split
  case h_1 => exact h
  case h_2 c live =>
    split
    case isTrue silent =>
      apply h.close _ .timeout
      rintro rfl
      obtain ⟨own, lives, _, _, received, _⟩ := h.live
      obtain rfl : own = c := Option.some.inj (lives.symm.trans live)
      have late : s.config.livenessTimeout < s.now - own.lastReceived := by
        simpa [Connection.isTimedOut] using silent
      rw [received, h.clock.1, h.clock.2] at late
      exact Nat.not_lt.2 inTime late
    case isFalse =>
      split
      case h_1 => exact h
      case h_2 f head =>
        have sent : (s.sendTo c (.control f)).2.Attends endpoint k t := by
          apply h.sendTo live
          rintro rfl
          obtain ⟨own, lives, _, kept, _⟩ := h.live
          obtain rfl : own = c := Option.some.inj (lives.symm.trans live)
          obtain ⟨m, rest, waiting, rfl⟩ := ControlQueue.head?_eq_some.1 head
          apply Body.Friendly.control
          rintro reason rfl
          exact kept reason (waiting ▸ List.mem_cons_self)
        generalize s.sendTo c (.control f) = outcome at sent
        obtain ⟨result, s'⟩ := outcome
        cases result with
        | ok => exact sent
        | error => exact sent

theorem Attends.sweepIn (h : s.Attends endpoint k t) (inTime : t.now - t.heard ≤ t.timeout)
    (order : List ConnectionId) : (s.sweepIn order).2.Attends endpoint k t := by
  have swept : (order.foldl Server.sweepOne ({}, s)).2.Attends endpoint k t := by
    refine List.foldlRecOn order _
      (motive := fun acc : SweepReport × Server => acc.2.Attends endpoint k t) h ?_
    intro acc attends id _
    exact attends.sweepOne inTime id
  have expired (l : Lobby) (now : Instant) (timeout : Duration) :
      (l.expirePending now timeout).2.registry.connections = l.registry.connections ∧
      (l.expirePending now timeout).2.registry.byEndpoint = l.registry.byEndpoint := by
    obtain ⟨pending, tokens, kept, _⟩ := l.registry.expirePending_eq now timeout
    have registry : (l.expirePending now timeout).2.registry =
        { l.registry with pending, tokens } := kept
    rw [registry]
    exact ⟨rfl, rfl⟩
  exact swept.of_eq (expired _ _ _).1 (expired _ _ _).2 rfl rfl ⟨rfl, rfl⟩

/-! ## Flushes -/

/-- An envelope that fits goes out unless it is refused. -/
theorem sendTo_of_fits {c : Connection} {e : Envelope} (fits : Wire.envelopeSize e ≤ maxPacketSize)
    (clear : ∀ d, d.target = c.address → s.transport.refuses d = false) :
    ∃ bytes, s.sendTo c (.envelope e) = (.ok bytes.length, { s with
      lobby := s.lobby.modify c.id fun c => c.nextSequence.2
      transport := { s.transport with sent := s.transport.sent ++ [⟨c.address, bytes⟩] } }) := by
  have encoded : Wire.encode (.numbered c.sequence (.envelope e)) =
      .ok (Wire.layOut (.numbered c.sequence (.envelope e))) := if_pos fits
  have out := Transport.send_of_encode encoded (clear ⟨c.address, _⟩ rfl)
  refine ⟨Wire.layOut (.numbered c.sequence (.envelope e)), ?_⟩
  unfold sendTo Server.send
  dsimp only
  rw [out]

/-- An envelope for another connection goes out or not. -/
theorem Attends.sendEnvelope_of_ne {acc : Nat × Server} (h : acc.2.Attends endpoint k t)
    {mail : ConnectionId × Envelope} (other : mail.1 ≠ k) :
    (Server.sendEnvelope acc mail).2.Attends endpoint k t := by
  obtain ⟨count, s⟩ := acc
  obtain ⟨id, e⟩ := mail
  dsimp only at h other
  unfold Server.sendEnvelope
  dsimp only
  cases live : s.connection? id with
  | none => exact h
  | some c =>
    have sent : (s.sendTo c (.envelope e)).2.Attends endpoint k t :=
      h.sendTo live fun _ => .envelope e
    dsimp only
    generalize s.sendTo c (.envelope e) = outcome at sent
    obtain ⟨result, s'⟩ := outcome
    cases result with
    | ok => exact sent.modify (fun _ => rfl) (fun _ => ⟨rfl, rfl⟩) fun _ same => absurd same other
    | error error =>
      cases error with
      | tooLarge => exact sent.leave other .oversized
      | undecodable | linkDown => exact sent

/-- An envelope for the connection itself goes out. -/
theorem Attends.sendEnvelope {acc : Nat × Server} (h : acc.2.Attends endpoint k t) {e : Envelope}
    (fits : Wire.envelopeSize e ≤ maxPacketSize) :
    (Server.sendEnvelope acc (k, e)).2.Attends endpoint k { t with said := t.now } ∧
      ∃ d ∈ (Server.sendEnvelope acc (k, e)).2.transport.sent, d.target = endpoint := by
  obtain ⟨count, s⟩ := acc
  dsimp only at h
  obtain ⟨c, live, address, _⟩ := h.live
  have sent : (s.sendTo c (.envelope e)).2.Attends endpoint k t :=
    h.sendTo live fun _ => .envelope e
  obtain ⟨bytes, out⟩ := sendTo_of_fits fits fun d toward => h.link d (toward.trans address)
  rw [out] at sent
  unfold Server.sendEnvelope
  simp only [live, out]
  refine ⟨?_, ⟨c.address, bytes⟩, List.mem_append_right _ List.mem_cons_self, address⟩
  apply sent.modify (f := fun c => c.markSent s.now) (fun _ => rfl) fun other => absurd rfl other
  intro c _ _ received _
  exact ⟨List.Subset.refl _, received, h.clock.1⟩

/-- Envelopes go out one after the other. -/
theorem Attends.sendEnvelopes (acc : Nat × Server) (mails : List (ConnectionId × Envelope))
    (h : acc.2.Attends endpoint k t)
    (fits : ∀ e, (k, e) ∈ mails → Wire.envelopeSize e ≤ maxPacketSize) :
    ((∀ mail ∈ mails, mail.1 ≠ k) ∧ (mails.foldl Server.sendEnvelope acc).2.Attends endpoint k t) ∨
      (mails.foldl Server.sendEnvelope acc).2.Attends endpoint k { t with said := t.now } ∧
        ∃ d ∈ (mails.foldl Server.sendEnvelope acc).2.transport.sent, d.target = endpoint := by
  induction mails generalizing acc t with
  | nil => exact .inl ⟨nofun, h⟩
  | cons mail rest ih =>
    have later (e : Envelope) (mem : (k, e) ∈ rest) := fits e (List.mem_cons_of_mem _ mem)
    rw [List.foldl_cons]
    by_cases own : mail.1 = k
    · right
      obtain ⟨id, e⟩ := mail
      obtain rfl : id = k := own
      obtain ⟨attends, d, mem, toward⟩ := h.sendEnvelope (fits e List.mem_cons_self)
      rcases ih _ attends later with ⟨_, attends'⟩ | again
      · refine ⟨attends', d, ?_, toward⟩
        refine List.foldlRecOn rest _ (motive := fun acc : Nat × Server => d ∈ acc.2.transport.sent)
          mem ?_
        intro acc mem mail _
        have tended : Tended False acc.2 (Server.sendEnvelope acc mail).2 :=
          tended_sendEnvelope acc mail
        exact tended.grows.subset mem
      · exact again
    · rcases ih _ (h.sendEnvelope_of_ne own) later with ⟨none, attends⟩ | out
      · exact .inl ⟨List.forall_mem_cons.2 ⟨own, none⟩, attends⟩
      · exact .inr out

/-- A flush sends the connection an envelope, or it was sent one lately. -/
theorem Attends.flushIn (h : s.Attends endpoint k t) {connections peers : List ConnectionId}
    (visits : connections.Perm s.ids) (sends : peers.Perm s.lobby.peers.keys)
    (fits : ∀ e ∈ s.buildsFor connections peers k, Wire.envelopeSize e ≤ maxPacketSize) :
    (t.now - t.said < t.timeout / 2 ∧ (s.flushIn connections peers).2.Attends endpoint k t) ∨
      (s.flushIn connections peers).2.Attends endpoint k { t with said := t.now } ∧
        ∃ d ∈ (s.flushIn connections peers).2.transport.sent, d.target = endpoint := by
  obtain ⟨map, asked⟩ := s.foldl_keepAliveOne_eq connections
  have built := s.buildsFor_eq visits sends k
  have woken := s.isSome_foldl_keepAliveOne connections k
  unfold buildsFor builds at built fits
  unfold Server.flushIn
  dsimp only
  rw [asked] at built fits woken ⊢
  dsimp only at built fits woken ⊢
  have started := h.peers ((PeerMap.isSome_flushEach peers map k).trans woken)
  rcases Attends.sendEnvelopes (0, _) (map.flushEach peers).1 started
    fun e mem => fits e (by simpa using mem) with ⟨none, attends⟩ | out
  · left
    refine ⟨?_, attends⟩
    obtain ⟨c, live, _, _, _, last⟩ := h.live
    obtain ⟨o, slot⟩ := Option.isSome_iff_exists.1 h.slot
    have nothing : ((map.flushEach peers).1.filter (·.1 = k)).map Prod.snd = [] := by
      simpa using fun id e mem => none (id, e) mem
    -- without an envelope nothing was due, so that the connection did not ask for one by its
    -- silence
    have asleep : s.wakes k = false := by
      rw [nothing, due, slot] at built
      cases awake : s.wakes k with
      | false => rfl
      | true => simp [Option.filter, awake] at built
    rw [← h.clock.1, ← h.clock.2]
    simpa [wakes, live, Connection.isIdle, keepAliveInterval, last] using asleep
  · exact .inr out

/-! ## Datagrams -/

theorem Attends.perform (h : s.Attends endpoint k t) (source : ConnectionId)
    (call : Call ServerHandler) :
    ((receiver source).perform call s).Attends endpoint k t := by
  have relayed (c : Command) : (s.relay source c).Attends endpoint k t :=
    h.peers (PeerMap.isSome_enqueueAll c _ s.lobby.peers k)
  match call with
  | .guaranteed .peers _ => exact h
  | .guaranteed .relay c => exact relayed c
  | .acknowledge ack => exact h.peers (PeerMap.isSome_enqueue s.lobby.peers source ack k)
  | .unreliable .peers c => exact h.peers (PeerMap.isSome_heed s.lobby.peers source c k)
  | .guaranteed (.application _) _ | .unreliable (.application _) _ =>
    exact h.of_eq rfl rfl rfl rfl ⟨rfl, rfl⟩
  | .unreliable .relay c =>
    simp only [receiver]
    split
    · exact relayed c
    · exact h

theorem Attends.routeEnvelope (h : s.Attends endpoint k t) (c : Connection) (e : Envelope) :
    (s.routeEnvelope c e).2.Attends endpoint k t := by
  have performed (calls : List (Call ServerHandler)) :
      ((receiver c.id).performAll calls s).Attends endpoint k t :=
    (receiver c.id).performAll_induct h fun call _ s' attends => attends.perform c.id call
  simp only [Server.routeEnvelope, Receiver.receive_eq]
  split
  · exact (performed _).note (f := fun c' => { c' with inbound := _ }) (fun _ => ⟨rfl, rfl⟩)
      fun _ => ⟨rfl, rfl⟩
  · exact h.note (f := fun c' => { c' with inbound := _ }) (fun _ => ⟨rfl, rfl⟩) fun _ => ⟨rfl, rfl⟩

/-- A control frame confirms a message, and none of those that wait is a kick. -/
theorem Attends.routeControl (h : s.Attends endpoint k t) {c : Connection}
    (live : s.connection? k = some c) (f : ControlFrame) :
    (s.routeControl c f).2.Attends endpoint k t := by
  obtain ⟨c', lives, _, kept, received, sent⟩ := h.live
  obtain rfl : c' = c := Option.some.inj (lives.symm.trans live)
  obtain rfl : c'.id = k := h.keyed k c' live
  have cases := c'.control.accept_cases f.order f.confirms
  have accepted : { s with
      lobby := s.lobby.modify c'.id fun _ => (c'.accept f.order f.confirms).2 }.Attends endpoint
      c'.id t := by
    rw [modify_congr (g := fun c => (c.accept f.order f.confirms).2) live rfl]
    apply h.modify (f := fun c => (c.accept f.order f.confirms).2) (fun _ => rfl) fun _ =>
      ⟨rfl, rfl⟩
    intro c _ live' received sent
    obtain rfl : c' = c := Option.some.inj (live.symm.trans live')
    refine ⟨?_, received, sent⟩
    rcases cases with ⟨m, rest, _, before, taken⟩ | ⟨_, same, _⟩
    · have left : (c'.accept f.order f.confirms).2.control.waiting = rest := by
        simp [Connection.accept, taken]
      rw [left, before]
      exact List.subset_cons_self m rest
    · exact same ▸ List.Subset.refl _
  have spared : ∀ reason, (c'.accept f.order f.confirms).1 ≠ .accepted (some (.kick reason)) := by
    intro reason confirmed
    rcases cases with ⟨m, rest, _, before, taken⟩ | ⟨none, _⟩
    · have head : m = .kick reason := by simpa [Connection.accept, taken] using confirmed
      exact kept reason (before ▸ head ▸ List.mem_cons_self)
    · exact none _ confirmed
  unfold Server.routeControl
  dsimp only
  split
  case h_2 reason confirmed => exact absurd confirmed (spared reason)
  all_goals exact accepted

/-- Whatever friendly arrives from the connection's endpoint is a sign of life, and nothing is
answered at once. -/
theorem Attends.route (h : s.Attends endpoint k t) {bytes : List UInt8}
    (friendly : Wire.Friendly bytes) :
    (s.route endpoint bytes).2.Attends endpoint k { t with heard := max t.heard t.now } ∧
      (s.route endpoint bytes).2.transport = s.transport := by
  obtain ⟨sequence, body, decoded, friendly⟩ := friendly
  obtain ⟨c, live, address, _⟩ := h.live
  obtain rfl : c.id = k := h.keyed k c live
  have found : s.lobby.registry.connectionAt? endpoint = some c := by
    have leads := (h.sole c.id).2 ⟨c, live, address ▸ List.mem_cons_self⟩
    rw [Registry.connectionAt?, leads]
    exact live
  let s₁ : Server := { s with lobby := s.lobby.modify c.id (·.touch s.now) }
  have touched : s₁.Attends endpoint c.id { t with heard := max t.heard t.now } := by
    apply h.modify (f := fun c => c.touch s.now) (fun _ => rfl) fun other => absurd rfl other
    intro c' _ _ received sent
    rw [h.clock.1]
    exact ⟨List.Subset.refl _, congrArg (max · t.now) received, sent⟩
  have routed : s.route endpoint bytes = s₁.routeConnected (c.touch s.now) body := by
    have valid : (Packet.numbered sequence body).header.isValid = true := by
      simp [Packet.numbered, Header.isValid]
    unfold Server.route
    rw [decoded]
    dsimp only
    rw [if_pos valid]
    cases friendly <;> simp only [routePacket, Packet.numbered, found] <;> rfl
  constructor
  · rw [routed]
    cases friendly with
    | envelope e => exact touched.routeEnvelope _ e
    | control stays =>
      have present : s₁.connection? c.id = some (c.touch s.now) := connection?_touch live s.now
      exact touched.routeControl present _
  · apply s.transport_route
    rw [routed]
    cases friendly with
    | envelope e =>
      intro refused
      cases refused
    | control stays =>
      simp only [routeConnected, Server.routeControl]
      split <;> simp

end
end Server
end DatagramSession
