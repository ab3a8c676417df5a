import DatagramSession.Proofs.Attending
import DatagramSession.Proofs.Recovery
/-!
# Sessions that are kept alive

A client and a server, both with the same timeout, each send the other an envelope at least every
half of it, as long as they are updated and flushed that often.  While whatever is sent arrives
before the clock moves on, neither of them has been silent for longer than the rest of one half and
another half (`InTouch`), which is less than the timeout.  Main statement: `vigil_holds`, the
session of the two lasts, however long they run and however little they have to say.
-/
namespace DatagramSession

namespace Client

/-- The client is ready, and nothing it has said so far ends the session. -/
structure Attends (t : Times) (c : Client) : Prop where
  standing : c.state = .ready ∧ c.closeReason = none
  slot : c.outbound.isSome = true
  mail : ∀ d ∈ c.transport.sent, Wire.Friendly d.bytes
  link : ∀ d, c.transport.refuses d = false
  clock : c.now = t.now ∧ c.config.connectionTimeout = t.timeout ∧ c.lastReceived = t.heard ∧
    c.lastSent = t.said

section
variable {t : Times} {c : Client}

theorem Attends.outbound (h : c.Attends t) {slot : PeerSlot} (present : slot.isSome = true) :
    { c with outbound := slot }.Attends t :=
  ⟨h.standing, present, h.mail, h.link, h.clock⟩

theorem Attends.inbound (h : c.Attends t) (inbound : Inbound) : { c with inbound }.Attends t :=
  ⟨h.standing, h.slot, h.mail, h.link, h.clock⟩

theorem Attends.mark (h : c.Attends t) (order : OrderNumber) :
    { c with controlWatermark := some order }.Attends t :=
  ⟨h.standing, h.slot, h.mail, h.link, h.clock⟩

theorem Attends.deliver (h : c.Attends t) (d : Delivery) : (c.deliver d).Attends t :=
  ⟨h.standing, h.slot, h.mail, h.link, h.clock⟩

theorem Attends.enqueue (h : c.Attends t) (command : Command) : (c.enqueue command).2.Attends t :=
  h.outbound ((PeerSlot.isSome_enqueue command c.outbound).trans h.slot)

theorem Attends.elapse (h : c.Attends t) (d : Duration) :
    (c.elapse d).Attends { t with now := t.now + d } :=
  ⟨h.standing, h.slot, h.mail, h.link, congrArg (· + d) h.clock.1, h.clock.2⟩

/-- Some datagrams of the outbox have been taken. -/
theorem Attends.relink (h : c.Attends t) {rest : List Datagram} (fewer : rest ⊆ c.transport.sent) :
    { c with transport := { c.transport with sent := rest } }.Attends t :=
  ⟨h.standing, h.slot, fun d mem => h.mail d (fewer mem), h.link, h.clock⟩

theorem Attends.send (h : c.Attends t) {body : Body} (friendly : body.Friendly) :
    (c.send body).2.Attends t := by
  constructor
  case standing => exact h.standing
  case slot => exact h.slot
  case mail =>
    intro d mem
    rcases Transport.mem_sent_send mem with old | encoded
    · exact h.mail d old
    · exact Wire.friendly_of_encode friendly encoded
  case link =>
    intro d
    exact (congrFun (c.transport.refuses_send c.server _) d).trans (h.link d)
  case clock => exact h.clock

/-! ## Updates -/

/-- An envelope that fits goes out. -/
theorem Attends.sendEnvelope (h : c.Attends t) {e : Envelope}
    (fits : Wire.envelopeSize e ≤ maxPacketSize) :
    (c.sendEnvelope e).2.Attends { t with said := t.now } ∧
    (c.sendEnvelope e).2.transport.sent ≠ [] := by
  have encoded : Wire.encode (.numbered c.sequence (.envelope e)) =
      .ok (Wire.layOut (.numbered c.sequence (.envelope e))) := if_pos fits
  have out := Transport.send_of_encode encoded (h.link ⟨c.server, _⟩)
  have sent : (c.send (.envelope e)).2.Attends t := h.send (.envelope e)
  unfold Client.sendEnvelope
  unfold Client.send at sent ⊢
  rw [out] at sent ⊢
  exact ⟨⟨sent.standing, sent.slot, sent.mail, sent.link, h.clock.1, h.clock.2.1, h.clock.2.2.1,
    h.clock.1⟩, by simp⟩

/-- An update sends an envelope, or one was sent lately. -/
theorem Attends.update (h : c.Attends t) (inTime : t.now - t.heard ≤ t.timeout)
    (fits : ∀ e ∈ c.builds, Wire.envelopeSize e ≤ maxPacketSize) :
    (t.now - t.said < t.timeout / 2 ∧ c.update.2.Attends t) ∨
      c.update.2.Attends { t with said := t.now } ∧ c.update.2.transport.sent ≠ [] := by
  obtain ⟨now, timeout, heard, said⟩ := h.clock
  have ready := h.standing.1
  have found : c.isLost = false := by simpa [isLost, now, timeout, heard] using inTime
  have updated : c.update = c.flush := by
    rw [Client.update, if_neg (by simp [ready]), if_neg (by simp [found]),
      retry_of_isRegistered (by rw [ready]; rfl)]
  have registered : c.state.isRegistered = true := by rw [ready]; rfl
  rw [updated]
  unfold builds at fits
  unfold Client.flush
  simp only [registered, found, Bool.not_false, Bool.and_self, if_true] at fits ⊢
  obtain ⟨o, slot⟩ := Option.isSome_iff_exists.1 h.slot
  rw [slot] at fits ⊢
  cases idle : c.isIdle with
  | true =>
    simp only [idle, if_true, PeerSlot.keepAlive, Option.map_some, PeerSlot.flush,
      o.flush_keepAlive] at fits ⊢
    exact .inr ((h.outbound rfl).sendEnvelope (fits _ rfl))
  | false =>
    have recent : t.now - t.said < t.timeout / 2 := by simpa [isIdle, now, timeout, said] using idle
    simp only [idle, Bool.false_eq_true, if_false, PeerSlot.flush] at fits ⊢
    cases due : o.flush.1 with
    | none => exact .inl ⟨recent, h.outbound rfl⟩
    | some e => exact .inr ((h.outbound rfl).sendEnvelope (fits e due))

/-! ## Datagrams -/

theorem Attends.takeEnvelope (h : c.Attends t) (e : Envelope) : (c.takeEnvelope e).Attends t := by
  have performed (calls : List (Call ClientHandler)) : (receiver.performAll calls c).Attends t := by
    apply receiver.performAll_induct h
    intro call _ c' attends
    match call with
    | .guaranteed .peer _ => exact attends
    | .acknowledge ack => exact attends.enqueue ack
    | .unreliable .peer command =>
      exact attends.outbound ((PeerSlot.isSome_heed command c'.outbound).trans attends.slot)
    | .guaranteed (.application _) _ | .unreliable (.application _) _ => exact attends.deliver _
  unfold Client.takeEnvelope
  split
  · simp only [Receiver.receive_eq]
    apply Attends.inbound
    split
    · exact performed _
    · exact h
  · exact h

/-- Who is ready needs no welcome. -/
theorem Attends.applyControl (h : c.Attends t) {m : ControlMessage}
    (stays : ∀ reason, m ≠ .kick reason) :
    (c.applyControl m).Attends t := by
  have ready := h.standing.1
  cases m with
  | kick reason => exact absurd rfl (stays reason)
  | registered id => simpa [Client.applyControl, ready] using h
  | servicesReady => simpa [Client.applyControl, ready] using h
  | confirm => exact h

theorem Attends.takeControl (h : c.Attends t) {f : ControlFrame}
    (stays : ∀ reason, f.message ≠ .kick reason) :
    (c.takeControl f).Attends t := by
  unfold Client.takeControl
  split
  · have sent : (c.send (.control (.numbered f.order .confirm true))).2.Attends t :=
      h.send (.control nofun)
    dsimp only
    split
    · exact (sent.mark f.order).applyControl stays
    · exact sent
  · exact h.applyControl stays

/-- Whatever friendly arrives from the server is a sign of life. -/
theorem Attends.takeDatagram (h : c.Attends t) {bytes : List UInt8}
    (friendly : Wire.Friendly bytes) :
    (c.takeDatagram c.server bytes).Attends { t with heard := t.now } := by
  obtain ⟨sequence, body, decoded, friendly⟩ := friendly
  have valid : (Packet.numbered sequence body).header.isValid = true := by
    simp [Packet.numbered, Header.isValid]
  have noticed : { c with lastReceived := c.now }.Attends { t with heard := t.now } :=
    ⟨h.standing, h.slot, h.mail, h.link, h.clock.1, h.clock.2.1, h.clock.1, h.clock.2.2.2⟩
  have taken : c.takeDatagram c.server bytes =
      { c with lastReceived := c.now }.takePacket (.numbered sequence body) := by
    simp [Client.takeDatagram, decoded, valid, h.standing.1]
  rw [taken]
  cases friendly with
  | envelope e => exact noticed.takeEnvelope e
  | control stays => exact noticed.takeControl stays

end
end Client

/-! ## Silence -/

namespace Times

/-- How long nothing was said. -/
def unsaid (t : Times) : Duration :=
  t.now - t.said

/-- How long nothing was heard. -/
def unheard (t : Times) : Duration :=
  t.now - t.heard

theorem unsaid_elapse {t : Times} (past : t.said ≤ t.now) (d : Duration) :
    { t with now := t.now + d }.unsaid = t.unsaid + d :=
  Nat.sub_add_comm past

theorem unheard_elapse (t : Times) (d : Duration) :
    { t with now := t.now + d }.unheard ≤ t.unheard + d := by
  have split (now d heard : Nat) : now + d - heard ≤ now - heard + d := by omega
  exact split t.now d t.heard

end Times

/-- One party speaks at least every half of the timeout, and `since` has passed since it was last
asked to.  Unless something waits to be delivered, the other party has heard what was said last. -/
structure InTouch (half since : Nat) (waits : Prop) (unsaid unheard : Nat) : Prop where
  lately : unsaid ≤ half - 1 + since
  follows : waits ∨ unheard ≤ unsaid
  bounded : unheard ≤ half - 1 + half

namespace InTouch

section
variable {half since d unsaid unheard unheard' : Nat} {waits waits' : Prop}

theorem start : InTouch half 0 waits 0 0 :=
  ⟨Nat.zero_le _, .inr (Nat.le_refl 0), Nat.zero_le _⟩

/-- Time passes when nothing waits to be delivered. -/
theorem elapse (h : InTouch half since waits unsaid unheard) (idle : ¬ waits)
    (soon : since + d ≤ half) (later : unheard' ≤ unheard + d) :
    InTouch half (since + d) waits' (unsaid + d) unheard' := by
  obtain ⟨lately, follows, _⟩ := h
  have heard : unheard ≤ unsaid := follows.resolve_left idle
  constructor
  case lately => omega
  case follows => right; omega
  case bounded => omega

theorem mono (h : InTouch half since waits unsaid unheard) (more : waits → waits') :
    InTouch half since waits' unsaid unheard :=
  ⟨h.lately, h.follows.imp_left more, h.bounded⟩

/-- The party speaks. -/
theorem speaks (h : InTouch half since waits unsaid unheard) (waiting : waits') :
    InTouch half 0 waits' 0 unheard :=
  ⟨Nat.zero_le _, .inl waiting, h.bounded⟩

/-- The party is asked to speak and has spoken lately. -/
theorem keepsSilent (h : InTouch half since waits unsaid unheard) (recent : unsaid < half)
    (more : waits → waits') :
    InTouch half 0 waits' unsaid unheard := by
  refine ⟨?_, h.follows.imp_left more, h.bounded⟩
  omega

/-- The other party hears something. -/
theorem hears (h : InTouch half since waits unsaid unheard) : InTouch half since waits' unsaid 0 :=
  ⟨h.lately, .inr (Nat.zero_le _), Nat.zero_le _⟩

/-- Nobody is silent for longer than the timeout. -/
theorem inTime {timeout : Nat} (h : InTouch (timeout / 2) since waits unsaid unheard) :
    unheard ≤ timeout := by
  have bounded := h.bounded
  omega

end
end InTouch

/-! ## Runs -/

/-- A client and its server, and what has passed since they were updated and flushed last. -/
structure Vigil where
  client : Client
  server : Server
  sinceUpdate : Duration := 0
  sinceFlush : Duration := 0

namespace Vigil

/-- The server has sent something to an endpoint that is still under way. -/
def Underway (w : Vigil) (endpoint : Address) : Prop :=
  ∃ d ∈ w.server.transport.sent, d.target = endpoint

instance (w : Vigil) (endpoint : Address) : Decidable (w.Underway endpoint) :=
  inferInstanceAs (Decidable (∃ d ∈ w.server.transport.sent, d.target = endpoint))

/-- The client is at an endpoint where the server has the connection `k`.  What arrives is taken out
of its outbox, but for a copy that arrives later, and the clock does not move before all has
arrived. -/
inductive Step (endpoint : Address) (k : ConnectionId) : Vigil → Vigil → Prop where
  | elapse (w : Vigil) (d : Duration)
      (updated : w.sinceUpdate + d ≤ w.client.config.connectionTimeout / 2)
      (flushed : w.sinceFlush + d ≤ w.server.config.livenessTimeout / 2)
      (up : w.client.transport.sent = []) (down : ¬ w.Underway endpoint) :
      Step endpoint k w { w with
        client := w.client.elapse d, server := w.server.elapse d
        sinceUpdate := w.sinceUpdate + d, sinceFlush := w.sinceFlush + d }
  | update (w : Vigil) (fits : ∀ e ∈ w.client.builds, Wire.envelopeSize e ≤ maxPacketSize) :
      Step endpoint k w { w with client := w.client.update.2, sinceUpdate := 0 }
  /-- Every connection and every peer is visited once, in any order. -/
  | flush (w : Vigil) {connections peers : List ConnectionId}
      (visits : connections.Perm w.server.ids) (sends : peers.Perm w.server.lobby.peers.keys)
      (fits : ∀ e ∈ w.server.buildsFor connections peers k, Wire.envelopeSize e ≤ maxPacketSize) :
      Step endpoint k w { w with server := (w.server.flushIn connections peers).2, sinceFlush := 0 }
  | sweep (w : Vigil) (order : List ConnectionId) :
      Step endpoint k w { w with server := (w.server.sweepIn order).2 }
  | enqueueUp (w : Vigil) (c : Command) :
      Step endpoint k w { w with client := (w.client.enqueue c).2 }
  | enqueueDown (w : Vigil) (id : ConnectionId) (c : Command) :
      Step endpoint k w { w with server := (w.server.enqueue id c).2 }
  | broadcast (w : Vigil) (c : Command) :
      Step endpoint k w { w with server := (w.server.broadcast c).2 }
  | up (w : Vigil) {d : Datagram} (sent : d ∈ w.client.transport.sent) {rest : List Datagram}
      (taken : rest = w.client.transport.sent.erase d ∨ rest = w.client.transport.sent) :
      Step endpoint k w { w with
        client := { w.client with transport := { w.client.transport with sent := rest } }
        server := (w.server.route endpoint d.bytes).2 }
  | down (w : Vigil) {d : Datagram} (sent : d ∈ w.server.transport.sent)
      (toward : d.target = endpoint) {rest : List Datagram}
      (taken : rest = w.server.transport.sent.erase d ∨ rest = w.server.transport.sent) :
      Step endpoint k w { w with
        client := w.client.takeDatagram w.client.server d.bytes
        server := { w.server with transport := { w.server.transport with sent := rest } } }

inductive Run (endpoint : Address) (k : ConnectionId) (w₀ : Vigil) : Vigil → Prop where
  | start : Run endpoint k w₀ w₀
  | next {w w' : Vigil} : Run endpoint k w₀ w → Step endpoint k w w' → Run endpoint k w₀ w'

/-- Both parties have just heard from each other and spoken to each other. -/
structure Begins (endpoint : Address) (k : ConnectionId) (timeout : Duration) (w : Vigil) :
    Prop where
  client : w.client.Attends ⟨timeout, w.client.now, w.client.now, w.client.now⟩
  server : w.server.Attends endpoint k ⟨timeout, w.server.now, w.server.now, w.server.now⟩
  sinceUpdate : w.sinceUpdate = 0
  sinceFlush : w.sinceFlush = 0

/-- Each party is in touch with the other one. -/
structure Holds (endpoint : Address) (k : ConnectionId) (timeout : Duration) (w : Vigil)
    (mine theirs : Times) :
    Prop where
  client : w.client.Attends mine
  server : w.server.Attends endpoint k theirs
  timeouts : mine.timeout = timeout ∧ theirs.timeout = timeout
  past : mine.said ≤ mine.now ∧ theirs.said ≤ theirs.now
  up : InTouch (timeout / 2) w.sinceUpdate (w.client.transport.sent ≠ []) mine.unsaid theirs.unheard
  down : InTouch (timeout / 2) w.sinceFlush (w.Underway endpoint) theirs.unsaid mine.unheard

section
variable {endpoint : Address} {k : ConnectionId} {timeout : Duration} {w w' w₀ : Vigil}
  {mine theirs : Times}

theorem Begins.holds (h : w.Begins endpoint k timeout) :
    w.Holds endpoint k timeout ⟨timeout, w.client.now, w.client.now, w.client.now⟩
      ⟨timeout, w.server.now, w.server.now, w.server.now⟩ := by
  have now (t : Instant) : t - t = 0 := Nat.sub_self t
  constructor
  case client => exact h.client
  case server => exact h.server
  case timeouts => exact ⟨rfl, rfl⟩
  case past => exact ⟨Nat.le_refl _, Nat.le_refl _⟩
  case up =>
    simp only [h.sinceUpdate, Times.unsaid, Times.unheard, now]
    exact .start
  case down =>
    simp only [h.sinceFlush, Times.unsaid, Times.unheard, now]
    exact .start

theorem step_holds (step : Step endpoint k w w') (h : w.Holds endpoint k timeout mine theirs) :
    ∃ mine' theirs', w'.Holds endpoint k timeout mine' theirs' := by
  obtain ⟨client, server, ⟨rfl, same⟩, ⟨past, past'⟩, up, down⟩ := h
  have grows {s : Server} (tended : Server.Tended False w.server s) :
      w.Underway endpoint → { w with server := s }.Underway endpoint :=
    fun ⟨d, mem, toward⟩ => ⟨d, tended.grows.subset mem, toward⟩
  cases step with
  | elapse d updated flushed silent quiet =>
    rw [client.clock.2.1] at updated
    rw [server.clock.2, same] at flushed
    refine ⟨_, _, client.elapse d, server.elapse d, ⟨rfl, same⟩, ⟨Nat.le_add_right_of_le past,
      Nat.le_add_right_of_le past'⟩, ?_, ?_⟩
    · rw [Times.unsaid_elapse past]
      exact up.elapse (not_not.2 silent) updated (theirs.unheard_elapse d)
    · rw [Times.unsaid_elapse past']
      exact down.elapse quiet flushed (mine.unheard_elapse d)
  | update fits =>
    rcases client.update (down.inTime) fits with ⟨recent, attends⟩ | ⟨attends, sent⟩
    · have grown (waits : w.client.transport.sent ≠ []) : w.client.update.2.transport.sent ≠ [] :=
        fun none => waits (List.prefix_nil.1 (none ▸ w.client.mute_update.grows))
      exact ⟨mine, theirs, attends, server, ⟨rfl, same⟩, ⟨past, past'⟩,
        up.keepsSilent recent grown, down⟩
    · refine ⟨_, theirs, attends, server, ⟨rfl, same⟩, ⟨Nat.le_refl _, past'⟩, ?_, down⟩
      show InTouch _ 0 _ (mine.now - mine.now) _
      rw [Nat.sub_self]
      exact up.speaks sent
  | @flush connections peers visits sends fits =>
    rcases server.flushIn visits sends fits with ⟨recent, attends⟩ | ⟨attends, sent⟩
    · rw [same] at recent
      exact ⟨mine, theirs, client, attends, ⟨rfl, same⟩, ⟨past, past'⟩, up,
        down.keepsSilent recent (grows (w.server.tended_flushIn connections peers))⟩
    · refine ⟨mine, _, client, attends, ⟨rfl, same⟩, ⟨past, Nat.le_refl _⟩, up, ?_⟩
      show InTouch _ 0 _ (theirs.now - theirs.now) _
      rw [Nat.sub_self]
      exact down.speaks sent
  | sweep order =>
    have inTime : theirs.unheard ≤ theirs.timeout := same ▸ up.inTime
    exact ⟨mine, theirs, client, server.sweepIn inTime order, ⟨rfl, same⟩, ⟨past, past'⟩, up,
      down.mono (grows (w.server.tended_sweepIn order))⟩
  | enqueueUp c =>
    exact ⟨mine, theirs, client.enqueue c, server, ⟨rfl, same⟩, ⟨past, past'⟩, up, down⟩
  | enqueueDown id c =>
    have attends := server.peers (PeerMap.isSome_enqueue w.server.lobby.peers id c k)
    exact ⟨mine, theirs, client, attends, ⟨rfl, same⟩, ⟨past, past'⟩, up, down⟩
  | broadcast c =>
    have attends :=
      server.peers (PeerMap.isSome_enqueueAll c w.server.lobby.peers.keys w.server.lobby.peers k)
    exact ⟨mine, theirs, client, attends, ⟨rfl, same⟩, ⟨past, past'⟩, up, down⟩
  | @up d sent rest taken =>
    have fewer : rest ⊆ w.client.transport.sent := by
      rcases taken with rfl | rfl
      · exact List.erase_subset
      · exact List.Subset.refl _
    obtain ⟨attends, quiet⟩ := server.route (client.mail d sent)
    refine ⟨mine, _, client.relink fewer, attends, ⟨rfl, same⟩, ⟨past, past'⟩, ?_, ?_⟩
    · have heard : theirs.now - max theirs.heard theirs.now = 0 :=
        Nat.sub_eq_zero_of_le (Nat.le_max_right _ _)
      show InTouch _ _ _ _ (theirs.now - max theirs.heard theirs.now)
      rw [heard]
      exact up.hears
    · refine down.mono fun ⟨d, mem, toward⟩ => ⟨d, ?_, toward⟩
      exact quiet ▸ mem
  | @down d sent toward rest taken =>
    have fewer : rest ⊆ w.server.transport.sent := by
      rcases taken with rfl | rfl
      · exact List.erase_subset
      · exact List.Subset.refl _
    have attends := client.takeDatagram (server.mail d sent toward)
    refine ⟨_, theirs, attends, server.relink fewer, ⟨rfl, same⟩, ⟨past, past'⟩, ?_, ?_⟩
    · apply up.mono
      intro waits none
      exact waits (List.prefix_nil.1 (none ▸ w.client.sent_grows_takeDatagram d.bytes))
    · show InTouch _ _ _ _ (mine.now - mine.now)
      rw [Nat.sub_self]
      exact down.hears

theorem Run.holds (run : Run endpoint k w₀ w) (begins : w₀.Begins endpoint k timeout) :
    ∃ mine theirs, w.Holds endpoint k timeout mine theirs := by
  induction run with
  | start => exact ⟨_, _, begins.holds⟩
  | next _ step ih =>
    obtain ⟨mine, theirs, holds⟩ := ih
    exact step_holds step holds

end

/-- A client and a server with the same timeout that have just heard from each other stay together
for as long as they are updated and flushed every half of it and what they send arrives at once: the
client is never closed, the connection is never dropped, and neither of them is about to give the
other one up. -/
theorem vigil_holds {endpoint : Address} {k : ConnectionId} {timeout : Duration} {w₀ w : Vigil}
    (begins : w₀.Begins endpoint k timeout) (run : Run endpoint k w₀ w) :
    w.client.state = .ready ∧ w.client.closeReason = none ∧ w.client.isLost = false ∧
      ∃ c, w.server.connection? k = some c ∧ c.address = endpoint ∧
        c.isTimedOut w.server.now w.server.config.livenessTimeout = false := by
  obtain ⟨mine, theirs, client, server, ⟨rfl, same⟩, _, up, down⟩ := run.holds begins
  obtain ⟨now, timeout, heard, _⟩ := client.clock
  obtain ⟨c, live, address, _, received, _⟩ := server.live
  obtain ⟨now', timeout'⟩ := server.clock
  refine ⟨client.standing.1, client.standing.2, ?_, c, live, address, ?_⟩
  · have inTime : mine.now - mine.heard ≤ mine.timeout := down.inTime
    simpa [Client.isLost, now, timeout, heard] using inTime
  · have inTime : theirs.now - theirs.heard ≤ theirs.timeout := same ▸ up.inTime
    simpa [Connection.isTimedOut, now', timeout', received] using inTime

/-- Neither has anything to say for one and a half timeouts. -/
theorem vigil_holds_idle :
    let serverAddress : Address := ⟨.v4 167772161, 7000⟩
    let endpoint : Address := ⟨.v4 167772162, 50000⟩
    ∃ w₀ w, w₀.Begins endpoint 1 (milliseconds 2000) ∧ Run endpoint 1 w₀ w ∧ w₀.client.now = 0 ∧
      w.client.now = milliseconds 3000 ∧ w.client.server = serverAddress ∧
      w.client.state = .ready ∧ w.client.closeReason = none ∧ w.client.isLost = false ∧
      ∃ c, w.server.connection? 1 = some c ∧ c.address = endpoint ∧
        c.isTimedOut w.server.now w.server.config.livenessTimeout = false := by
  intro serverAddress endpoint
  let client : Client :=
    { config := {}, server := serverAddress, state := .ready, id := some 1, outbound := some {} }
  let fresh : Registry := .empty defaultGame 1 1 32
  let lobby : Lobby :=
    { registry := (fresh.enrol 7 endpoint [] 0).2, watchers := [.peers, .events], peers :=
      (PeerMap.add {} 1).2 }
  let w₀ : Vigil := { client, server := { Server.start {} with lobby } }
  have live (id : ConnectionId) : w₀.server.connection? id =
      if 1 = id then some (.fresh 1 7 endpoint [] 0) else none :=
    Registry.connection?_enrol fresh 7 endpoint [] 0 id
  have begins : w₀.Begins endpoint 1 (milliseconds 2000) := by
    constructor
    case client =>
      exact ⟨⟨rfl, rfl⟩, rfl, fun _ sent => absurd sent List.not_mem_nil, fun _ => rfl, rfl, rfl,
        rfl, rfl⟩
    case server =>
      constructor
      case keyed =>
        intro id c found
        obtain ⟨rfl, same⟩ := Option.ite_none_right_eq_some.1 ((live id).symm.trans found)
        exact congrArg Connection.id (Option.some.inj same).symm
      case sole =>
        intro id
        have leads : w₀.server.lobby.registry.byEndpoint.find? endpoint = some 1 :=
          (fresh.byEndpoint_enrol 7 endpoint [] 0 endpoint).trans (if_pos List.mem_cons_self)
        rw [leads, live]
        by_cases same : 1 = id
        · simp [same, Connection.endpoints, Connection.fresh]
        · simp [same]
      case live => exact ⟨_, live 1, rfl, fun _ => List.not_mem_nil, rfl, rfl⟩
      case slot => rfl
      case mail => exact fun _ sent => absurd sent List.not_mem_nil
      case link => exact fun _ _ => rfl
      case clock => exact ⟨rfl, rfl⟩
    case sinceUpdate => rfl
    case sinceFlush => rfl
  let envelope (order : OrderNumber) : List UInt8 :=
    Sessions.datagramOf (.numbered order (.envelope ⟨order, [], []⟩))
  have waited : Run endpoint 1 w₀ _ := .next .start
    (.elapse _ (milliseconds 1000) (by decide +kernel) (by decide +kernel) (by decide +kernel)
      (by decide +kernel))
  have asked := (waited.next (.update _ (by decide +kernel))).next
    (@Step.flush endpoint 1 _ [1] [1] (by decide +kernel) (by decide +kernel) (by decide +kernel))
  have heard :=
    (asked.next (.up _ (d := ⟨serverAddress, envelope 0⟩) (by decide +kernel) (.inl rfl))).next
    (.down _ (d := ⟨endpoint, envelope 0⟩) (by decide +kernel) rfl (.inl rfl))
  have waited := heard.next
    (.elapse _ (milliseconds 1000) (by decide +kernel) (by decide +kernel) (by decide +kernel)
      (by decide +kernel))
  have asked := (waited.next (.update _ (by decide +kernel))).next
    (@Step.flush endpoint 1 _ [1] [1] (by decide +kernel) (by decide +kernel) (by decide +kernel))
  have heard :=
    (asked.next (.up _ (d := ⟨serverAddress, envelope 1⟩) (by decide +kernel) (.inl rfl))).next
    (.down _ (d := ⟨endpoint, envelope 1⟩) (by decide +kernel) rfl (.inl rfl))
  have run := heard.next
    (.elapse _ (milliseconds 1000) (by decide +kernel) (by decide +kernel) (by decide +kernel)
      (by decide +kernel))
  exact ⟨w₀, _, begins, run, rfl, by decide +kernel, by decide +kernel, vigil_holds begins run⟩

end Vigil
end DatagramSession
