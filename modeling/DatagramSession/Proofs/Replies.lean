import DatagramSession.Proofs.Calls
import DatagramSession.Proofs.Introductions
/-!
# What a client says

A client sends a control frame only to confirm one that it has just taken in.  Whatever else it does
(`Client.Mute`), it sends none, marks none as applied, and either stays as it is or ends its
session, and only then it sends a goodbye.  A frame that it hears (`Client.hears?`) it answers
(`Client.answer_of_hears?`).
-/
namespace DatagramSession

/-- The control frame of a datagram of this protocol. -/
def Wire.frame? (bytes : List UInt8) : Option ControlFrame :=
  match decode bytes with
  | .ok ⟨header, .control f⟩ => if header.isValid then some f else none
  | _ => none

namespace Wire

variable {bytes : List UInt8} {f : ControlFrame}

theorem decode_of_frame? (frame : frame? bytes = some f) :
    ∃ header, decode bytes = .ok ⟨header, .control f⟩ ∧ header.isValid = true := by
  unfold frame? at frame
  split at frame
  case h_1 header f' decoded =>
    obtain ⟨valid, same⟩ := Option.ite_none_right_eq_some.1 frame
    cases same
    exact ⟨header, decoded, valid⟩
  case h_2 => cases frame

theorem frame?_of_encode {p : Packet} (sent : encode p = .ok bytes)
    (frame : frame? bytes = some f) :
    p.body = .control f := by
  obtain ⟨header, decoded, _⟩ := decode_of_frame? frame
  rw [(decode_of_encode_eq_ok sent).2] at decoded
  cases decoded
  rfl

end Wire

namespace Client

/-- No control frame was sent or applied. -/
structure Mute (c c' : Client) : Prop where
  grows : c.transport.sent <+: c'.transport.sent
  plain : ∀ d ∈ c'.transport.sent, d ∈ c.transport.sent ∨ ∃ p, Wire.encode p = .ok d.bytes ∧
    (∀ f, p.body ≠ .control f) ∧ (p.body = .disconnect → c'.state = .disconnected)
  keeps : c'.controlWatermark = c.controlWatermark
  stays : c'.state ≠ .disconnected → c'.state = c.state ∧ c'.id = c.id

section
variable {c c' c'' : Client}

theorem mute_of_eq (sent : c'.transport.sent = c.transport.sent)
    (keeps : c'.controlWatermark = c.controlWatermark)
    (stays : c'.state ≠ .disconnected → c'.state = c.state ∧ c'.id = c.id) : Mute c c' :=
  ⟨sent ▸ List.prefix_rfl, fun _ mem => .inl (sent ▸ mem), keeps, stays⟩

theorem mute_rest (c : Client) : Mute c c :=
  mute_of_eq rfl rfl fun _ => ⟨rfl, rfl⟩

theorem Mute.trans (first : Mute c c') (second : Mute c' c'') : Mute c c'' := by
  constructor
  case grows => exact first.grows.trans second.grows
  case plain =>
    intro d mem
    rcases second.plain d mem with mid | new
    · refine (first.plain d mid).imp_right fun ⟨p, sent, plain, ended⟩ =>
        ⟨p, sent, plain, fun goodbye => ?_⟩
      by_contra on
      exact on ((second.stays on).1.trans (ended goodbye))
    · exact .inr new
  case keeps => exact second.keeps.trans first.keeps
  case stays =>
    intro on
    obtain ⟨state', id'⟩ := second.stays on
    obtain ⟨state, id⟩ := first.stays (state' ▸ on)
    exact ⟨state'.trans state, id'.trans id⟩

/-- The outbox after a datagram that may have been refused. -/
theorem sent_send (c : Client) (body : Body) :
    (c.send body).2.transport.sent = c.transport.sent ∨
      ∃ bytes, Wire.encode (.numbered c.sequence body) = .ok bytes ∧
      (c.send body).2.transport.sent = c.transport.sent ++ [⟨c.server, bytes⟩] :=
  c.transport.sent_send c.server _

theorem sent_prefix_send (c : Client) (body : Body) :
    c.transport.sent <+: (c.send body).2.transport.sent :=
  c.transport.sent_prefix_send c.server _

theorem mute_send (c : Client) {body : Body} (plain : ∀ f, body ≠ .control f)
    (ended : body = .disconnect → c.state = .disconnected) : Mute c (c.send body).2 := by
  refine ⟨c.sent_prefix_send body, fun d mem => ?_, rfl, fun _ => ⟨rfl, rfl⟩⟩
  exact (Transport.mem_sent_send mem).imp_right fun encoded => ⟨_, encoded, plain, ended⟩

theorem state_close (c : Client) (reason : String) : (c.close reason).state = .disconnected := by
  unfold close
  split
  case isTrue ended => exact ended
  case isFalse => rfl

theorem transport_close (c : Client) (reason : String) :
    (c.close reason).transport = c.transport := by
  unfold close
  split <;> rfl

theorem mute_close (c : Client) (reason : String) : Mute c (c.close reason) := by
  unfold close
  split
  · exact mute_rest c
  · exact mute_of_eq rfl rfl fun on => absurd rfl on

/-- A goodbye goes out when the session ends. -/
theorem mute_leave (c : Client) (reason : String) :
    Mute c ((c.send .disconnect).2.close reason) := by
  have closed := mute_close (c.send .disconnect).2 reason
  have ended : ((c.send .disconnect).2.close reason).state = .disconnected := state_close _ reason
  have sent : ((c.send .disconnect).2.close reason).transport = (c.send .disconnect).2.transport :=
    transport_close _ reason
  constructor
  case grows => exact (c.sent_prefix_send .disconnect).trans closed.grows
  case plain =>
    intro d mem
    rw [sent] at mem
    exact (Transport.mem_sent_send mem).imp_right fun encoded =>
      ⟨.numbered c.sequence .disconnect, encoded, nofun, fun _ => ended⟩
  case keeps => exact closed.keeps
  case stays =>
    intro on
    exact absurd ended on

theorem mute_disconnect (c : Client) : Mute c c.disconnect.2 := by
  unfold disconnect
  split
  · exact mute_rest c
  · exact mute_leave c _

/-! ## Updates -/

theorem mute_retry (c : Client) : Mute c c.retry.2 := by
  unfold retry
  split
  · have marked : Mute c { c with lastRegistration := some c.now } :=
      mute_of_eq rfl rfl fun _ => ⟨rfl, rfl⟩
    exact marked.trans (mute_send _ nofun nofun)
  · exact mute_rest c

theorem mute_sendEnvelope (c : Client) (e : Envelope) : Mute c (c.sendEnvelope e).2 := by
  have sent : Mute c (c.send (.envelope e)).2 := mute_send c nofun nofun
  unfold sendEnvelope
  split
  case h_1 n c' result =>
    rw [result] at sent
    exact sent.trans (mute_of_eq rfl rfl fun _ => ⟨rfl, rfl⟩)
  case h_2 size c' result =>
    rw [result] at sent
    exact sent.trans (mute_leave c' _)
  case h_3 error c' _ result =>
    rw [result] at sent
    exact sent

theorem mute_flush (c : Client) : Mute c c.flush.2 := by
  have outbound (slot : PeerSlot) : Mute c { c with outbound := slot } :=
    mute_of_eq rfl rfl fun _ => ⟨rfl, rfl⟩
  unfold flush
  split
  · dsimp only
    split
    · exact (outbound _).trans (mute_sendEnvelope _ _)
    · exact outbound _
  · exact mute_rest c

theorem mute_update (c : Client) : Mute c c.update.2 := by
  have retried := mute_retry c
  unfold update
  split
  · exact mute_rest c
  · split
    · exact mute_close c _
    · split
      case h_1 error c' result =>
        rw [result] at retried
        exact retried
      case h_2 n c' result =>
        rw [result] at retried
        exact retried.trans (mute_flush c')

/-! ## Datagrams -/

theorem mute_perform (call : Call ClientHandler) (c : Client) :
    Mute c (receiver.perform call c) := by
  match call with
  | .guaranteed .peer _ => exact mute_rest c
  | .guaranteed (.application _) _ | .acknowledge _ | .unreliable .peer _
  | .unreliable (.application _) _ =>
    exact mute_of_eq rfl rfl fun _ => ⟨rfl, rfl⟩

theorem mute_takeEnvelope (c : Client) (e : Envelope) : Mute c (c.takeEnvelope e) := by
  have performed (calls : List (Call ClientHandler)) : Mute c (receiver.performAll calls c) :=
    receiver.performAll_induct (mute_rest c) fun call _ c' mute => mute.trans (mute_perform call c')
  have kept (c' : Client) (inbound : Inbound) : Mute c' { c' with inbound } :=
    mute_of_eq rfl rfl fun _ => ⟨rfl, rfl⟩
  unfold takeEnvelope
  split
  · simp only [Receiver.receive_eq]
    apply Mute.trans _ (kept _ _)
    split
    · exact performed _
    · exact mute_rest c
  · exact mute_rest c

/-- A datagram without a control frame. -/
theorem mute_takeDatagram (c : Client) (source : Address) {bytes : List UInt8}
    (plain : Wire.frame? bytes = none) :
    Mute c (c.takeDatagram source bytes) := by
  unfold takeDatagram
  unfold Wire.frame? at plain
  split
  · exact mute_rest c
  · cases decoded : Wire.decode bytes with
    | error => exact mute_rest c
    | ok p =>
      obtain ⟨header, body⟩ := p
      dsimp only
      split
      case isFalse => exact mute_rest c
      case isTrue heard =>
        have noticed : Mute c { c with lastReceived := c.now } :=
          mute_of_eq rfl rfl fun _ => ⟨rfl, rfl⟩
        have valid : header.isValid = true := (Bool.and_eq_true_iff.1 heard).1
        cases body with
        | control f => simp [decoded, valid] at plain
        | envelope e => exact noticed.trans (mute_takeEnvelope _ e)
        | disconnect => exact noticed.trans (mute_close _ _)
        | register => exact noticed

theorem takeDatagram_of_disconnected (off : c.state = .disconnected) (source : Address)
    (bytes : List UInt8) :
    c.takeDatagram source bytes = c := by
  unfold takeDatagram
  split
  · rfl
  · cases Wire.decode bytes with
    | error => rfl
    | ok p => simp [off]

theorem takeDatagram_of_frame {bytes : List UInt8} {f : ControlFrame}
    (frame : Wire.frame? bytes = some f) (on : c.state ≠ .disconnected) :
    c.takeDatagram c.server bytes = { c with lastReceived := c.now }.takeControl f := by
  obtain ⟨header, decoded, valid⟩ := Wire.decode_of_frame? frame
  simp [takeDatagram, decoded, valid, on, takePacket]

/-- A control frame that does not ask for it is not confirmed. -/
theorem takeControl_of_unasked {f : ControlFrame} (unasked : f.confirms = false) :
    (c.takeControl f).transport = c.transport ∧
    (c.takeControl f).controlWatermark = c.controlWatermark := by
  rw [takeControl, unasked]
  exact ⟨c.transport_applyControl f.message, c.controlWatermark_applyControl f.message⟩

end

end Client

/-! ## What a client hears -/

/-- The control frame of a datagram that a client takes in and confirms. -/
def Client.hears? (c : Client) (bytes : List UInt8) : Option ControlFrame :=
  if c.state = .disconnected then none else (Wire.frame? bytes).filter (·.confirms)

theorem Wire.frame?_eq_some_of_encode {sequence : UInt32} {f : ControlFrame} {bytes : List UInt8}
    (sent : encode (.numbered sequence (.control f)) = .ok bytes) : frame? bytes = some f := by
  rw [frame?, (decode_of_encode_eq_ok sent).2]
  rfl

namespace Client

variable {c : Client} {bytes : List UInt8} {f : ControlFrame}

theorem hears?_eq_some : c.hears? bytes = some f ↔
    c.state ≠ .disconnected ∧ Wire.frame? bytes = some f ∧ f.confirms = true := by
  simp [hears?, Option.filter_eq_some_iff]

/-- What is not heard is not answered. -/
theorem quiet_of_hears?_eq_none (unheard : c.hears? bytes = none) :
    (∀ d ∈ (c.takeDatagram c.server bytes).transport.sent, ∀ f, Wire.frame? d.bytes = some f →
      d ∈ c.transport.sent) ∧
    (c.takeDatagram c.server bytes).controlWatermark = c.controlWatermark := by
  by_cases off : c.state = .disconnected
  · rw [takeDatagram_of_disconnected off]
    exact ⟨fun _ sent _ _ => sent, rfl⟩
  · cases frame : Wire.frame? bytes with
    | none =>
      have mute := c.mute_takeDatagram c.server frame
      refine ⟨fun d sent f frame => ?_, mute.keeps⟩
      rcases mute.plain d sent with old | ⟨p, encoded, plain, _⟩
      · exact old
      · exact absurd (Wire.frame?_of_encode encoded frame) (plain f)
    | some f =>
      have unasked : f.confirms = false := by simpa [hears?, off, frame] using unheard
      rw [takeDatagram_of_frame frame off]
      obtain ⟨transport, keeps⟩ :=
        takeControl_of_unasked (c := { c with lastReceived := c.now }) unasked
      rw [transport]
      exact ⟨fun _ sent _ _ => sent, keeps⟩

/-- What is heard is answered once, unless the link refuses that. -/
theorem sent_of_hears? (heard : c.hears? bytes = some f) :
    ((c.takeDatagram c.server bytes).transport.sent = c.transport.sent ∨
      ∃ d, Wire.frame? d.bytes = some (.numbered f.order .confirm true) ∧
        (c.takeDatagram c.server bytes).transport.sent = c.transport.sent ++ [d]) ∧
    (c.takeDatagram c.server bytes).controlWatermark =
      if f.order.isNewer c.controlWatermark then some f.order else c.controlWatermark := by
  obtain ⟨on, frame, asks⟩ := hears?_eq_some.1 heard
  rw [takeDatagram_of_frame frame on]
  refine ⟨?_, controlWatermark_takeControl _ asks⟩
  rw [transport_takeControl _ asks]
  rcases sent_send { c with lastReceived := c.now }
    (.control (.numbered f.order .confirm true)) with same | ⟨bytes', encoded, more⟩
  · exact .inl same
  · exact .inr ⟨_, Wire.frame?_eq_some_of_encode encoded, more⟩

/-- What is heard is answered, by a packet to the server that confirms it. -/
theorem answer_of_hears? (heard : c.hears? bytes = some f)
    (clear : ∀ d, c.transport.refuses d = false) :
    ∃ reply,
      Wire.encode (.numbered c.sequence (.control (.numbered f.order .confirm true))) = .ok reply ∧
      (c.takeDatagram c.server bytes).transport.sent = c.transport.sent ++ [⟨c.server, reply⟩] := by
  obtain ⟨on, frame, asks⟩ := hears?_eq_some.1 heard
  obtain ⟨reply, encoded⟩ :=
    Wire.encode_control c.sequence (f := .numbered f.order .confirm true) nofun
  refine ⟨reply, encoded, ?_⟩
  rw [takeDatagram_of_frame frame on, transport_takeControl _ asks]
  exact congrArg (·.2.sent) (Transport.send_of_encode encoded (clear _))

theorem reply_of_hears? (heard : c.hears? bytes = some f)
    (clear : ∀ d, c.transport.refuses d = false) :
    ∃ d, Wire.frame? d.bytes = some (.numbered f.order .confirm true) ∧
      (c.takeDatagram c.server bytes).transport.sent = c.transport.sent ++ [d] := by
  obtain ⟨reply, encoded, sent⟩ := answer_of_hears? heard clear
  exact ⟨⟨c.server, reply⟩, Wire.frame?_eq_some_of_encode encoded, sent⟩

end Client
end DatagramSession
