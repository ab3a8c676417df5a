import DatagramSession.Client.Receiving
import DatagramSession.Proofs.Slots
/-!
# What becomes of a client's session

`Client.Act` lists what an application, the clock and the network do to a client between two
connects, envelopes apart.  None of it touches what the client has received, and the outbound state
moves as a sending does (`act_moves`).  The same is true of an update, which may build an envelope
(`moves_update`), and of an envelope that arrives, which counts if the client accepts it
(`moves_takeEnvelope`).
-/
namespace DatagramSession.Client

/-- The slot that a client has or, while it registers, is going to have. -/
def seat (c : Client) : PeerSlot :=
  if c.state = .registering then PeerSlot.connected else c.outbound

/-- There is an outbound state only while the client is registered. -/
def Tidy (c : Client) : Prop :=
  c.state.isRegistered = false → c.outbound = none

/-- The application is handed a command of what was heard. -/
def Hears (heard : Option Envelope) (d : Delivery) : Prop :=
  ∃ e ∈ heard, d.command ∈ e.commands

/-- The slot of a client has moved, and all that was handed out was heard. -/
structure Moves (heard : Option Envelope) (built : List Envelope) (c c' : Client) : Prop where
  seat : PeerSlot.Moves heard built c.seat c'.seat
  tidy : c.Tidy → c'.Tidy
  inbound : c'.inbound = c.inbound
  told : Told (Hears heard) c.deliveries c'.deliveries

section
variable {heard : Option Envelope} {built more : List Envelope} {c c' c'' : Client}

theorem Moves.trans (first : Moves heard built c c') (second : Moves heard more c' c'') :
    Moves heard (built ++ more) c c'' :=
  ⟨first.seat.trans second.seat, fun tidy => second.tidy (first.tidy tidy),
    second.inbound.trans first.inbound, first.told.trans second.told⟩

/-- Nothing that matters to the session has changed, but for deliveries of what was heard. -/
theorem moves_of_told (state : c'.state = c.state) (outbound : c'.outbound = c.outbound)
    (inbound : c'.inbound = c.inbound) (told : Told (Hears heard) c.deliveries c'.deliveries) :
    Moves heard [] c c' := by
  have same : c'.seat = c.seat := by rw [seat, seat, state, outbound]
  refine ⟨?_, fun tidy idle => ?_, inbound, told⟩
  · rw [same]
    exact PeerSlot.moves_rest heard c.seat
  · rw [outbound]
    exact tidy (state ▸ idle)

theorem moves_of_eq (state : c'.state = c.state) (outbound : c'.outbound = c.outbound)
    (inbound : c'.inbound = c.inbound) (deliveries : c'.deliveries = c.deliveries) :
    Moves heard [] c c' :=
  moves_of_told state outbound inbound (.of_eq deliveries)

theorem moves_rest (heard : Option Envelope) (c : Client) : Moves heard [] c c :=
  moves_of_eq rfl rfl rfl rfl

theorem ne_registering_of_isRegistered {state : ClientState}
    (registered : state.isRegistered = true) :
    state ≠ .registering := by
  rintro rfl
  cases registered

theorem moves_outbound {slot : PeerSlot} (moves : PeerSlot.Moves heard [] c.outbound slot) :
    Moves heard [] c { c with outbound := slot } := by
  refine ⟨?_, fun tidy idle => (moves.absent (tidy idle)).1, rfl, .of_eq rfl⟩
  by_cases registering : c.state = .registering
  · simp only [seat, registering, if_true]
    exact PeerSlot.moves_rest heard _
  · simpa only [seat, registering, if_false] using moves

/-- A registered client sends what its slot has built. -/
theorem moves_outbound_of_isRegistered (registered : c.state.isRegistered = true) {slot : PeerSlot}
    (moves : PeerSlot.Moves heard built c.outbound slot) :
    Moves heard built c { c with outbound := slot } := by
  have settled := ne_registering_of_isRegistered registered
  refine ⟨?_, fun tidy idle => (moves.absent (tidy idle)).1, rfl, .of_eq rfl⟩
  simpa only [seat, settled, if_false] using moves

theorem moves_send (heard : Option Envelope) (c : Client) (body : Body) :
    Moves heard [] c (c.send body).2 :=
  moves_of_eq rfl rfl rfl rfl

theorem moves_close (heard : Option Envelope) (c : Client) (reason : String) :
    Moves heard [] c (c.close reason) := by
  unfold close
  split
  · exact moves_rest heard c
  · exact ⟨PeerSlot.moves_none heard _, fun _ _ => rfl, rfl, .of_eq rfl⟩

theorem moves_disconnect (heard : Option Envelope) (c : Client) :
    Moves heard [] c c.disconnect.2 := by
  unfold disconnect
  split
  · exact moves_rest heard c
  · exact (moves_send heard c .disconnect).trans (moves_close heard _ _)

/-! ## Control frames -/

/-- What a control message may change. -/
theorem applyControl_updates (c : Client) (m : ControlMessage) :
    ∃ state id closeReason outbound,
      c.applyControl m = { c with state, id, closeReason, outbound } := by
  cases m <;> simp only [applyControl, close] <;> (try split) <;> exact ⟨_, _, _, _, rfl⟩

theorem moves_applyControl (heard : Option Envelope) (c : Client) (m : ControlMessage) :
    Moves heard [] c (c.applyControl m) := by
  cases m with
  | registered id =>
    simp only [applyControl]
    split
    case isTrue registering =>
      refine ⟨?_, fun _ => nofun, rfl, .of_eq rfl⟩
      simp only [seat, registering, if_true]
      exact PeerSlot.moves_rest heard _
    case isFalse => exact moves_rest heard c
  | servicesReady =>
    simp only [applyControl]
    split
    case isTrue registered =>
      refine ⟨?_, fun _ => nofun, rfl, .of_eq rfl⟩
      simp only [seat, registered]
      exact PeerSlot.moves_rest heard _
    case isFalse => exact moves_rest heard c
  | kick reason => exact moves_close heard c reason
  | confirm => exact moves_rest heard c

theorem moves_takeControl (heard : Option Envelope) (c : Client) (f : ControlFrame) :
    Moves heard [] c (c.takeControl f) := by
  unfold takeControl
  split
  · have replied := moves_send heard c (.control (.numbered f.order .confirm true))
    dsimp only
    split
    · have marked : Moves heard [] (c.send (.control (.numbered f.order .confirm true))).2
          { (c.send (.control (.numbered f.order .confirm true))).2 with
            controlWatermark := some f.order } :=
        moves_of_eq rfl rfl rfl rfl
      exact (replied.trans marked).trans (moves_applyControl heard _ f.message)
    · exact replied
  · exact moves_applyControl heard c f.message

theorem moves_takePacket (heard : Option Envelope) (c : Client) {p : Packet}
    (bare : ∀ e, p.body ≠ .envelope e) :
    Moves heard [] c (c.takePacket p) := by
  unfold takePacket
  split
  case h_1 f _ => exact moves_takeControl heard c f
  case h_2 e carried => exact absurd carried (bare e)
  case h_3 => exact moves_close heard c _
  case h_4 => exact moves_rest heard c

/-- A datagram that carries no envelope, from wherever it may come. -/
theorem moves_takeDatagram (heard : Option Envelope) (c : Client) (source : Address)
    {bytes : List UInt8} (bare : ∀ p e, Wire.decode bytes = .ok p → p.body ≠ .envelope e) :
    Moves heard [] c (c.takeDatagram source bytes) := by
  unfold takeDatagram
  split
  · exact moves_rest heard c
  · split
    case h_1 => exact moves_rest heard c
    case h_2 p decoded =>
      split
      · have noticed : Moves heard [] c { c with lastReceived := c.now } :=
          moves_of_eq rfl rfl rfl rfl
        exact noticed.trans (moves_takePacket heard _ fun e => bare p e decoded)
      · exact moves_rest heard c

end

/-! ## Between two connects -/

/-- What may happen to a client, envelopes and connects apart. -/
inductive Act : Client → Client → Prop where
  | enqueue (c : Client) (command : Command) (message : command.confirmed? = none) :
      Act c (c.enqueue command).2
  | disconnect (c : Client) : Act c c.disconnect.2
  | addHandler (c : Client) (h : ClientHandler) : Act c (c.addHandler h)
  | removeHandler (c : Client) (h : ClientHandler) : Act c (c.removeHandler h).2
  | introduce (c : Client) (name : String) : Act c (c.introduce name)
  | takeDeliveries (c : Client) : Act c c.takeDeliveries.2
  | elapse (c : Client) (d : Duration) : Act c (c.elapse d)
  /-- The network takes datagrams from the outbox, or the link changes. -/
  | relink (c : Client) (transport : Transport) : Act c { c with transport }
  /-- A datagram arrives that carries no envelope. -/
  | datagram (c : Client) (source : Address) (bytes : List UInt8)
      (bare : ∀ p e, Wire.decode bytes = .ok p → p.body ≠ .envelope e) :
      Act c (c.takeDatagram source bytes)

theorem act_moves {c c' : Client} (act : Act c c') : Moves none [] c c' := by
  cases act with
  | enqueue command message => exact moves_outbound (PeerSlot.moves_enqueue message)
  | disconnect => exact moves_disconnect none c
  | datagram source bytes bare => exact moves_takeDatagram none c source bare
  | takeDeliveries => exact moves_of_told rfl rfl rfl .taken
  | addHandler | removeHandler | introduce | elapse | relink => exact moves_of_eq rfl rfl rfl rfl

/-! ## Updates -/

/-- The envelope that an update builds, whether or not it can be sent. -/
def builds (c : Client) : Option Envelope :=
  if c.state.isRegistered && !c.isLost then
    (PeerSlot.flush (if c.isIdle then (PeerSlot.keepAlive c.outbound).2 else c.outbound)).1
  else none

theorem moves_sendEnvelope (c : Client) (e : Envelope) : Moves none [] c (c.sendEnvelope e).2 := by
  unfold sendEnvelope
  have sent := moves_send none c (.envelope e)
  split
  case h_1 n c' result =>
    rw [result] at sent
    exact sent.trans (moves_of_eq rfl rfl rfl rfl)
  case h_2 size c' result =>
    rw [result] at sent
    exact (sent.trans (moves_send none c' .disconnect)).trans (moves_close none _ _)
  case h_3 error c' _ result =>
    rw [result] at sent
    exact sent

theorem moves_flush {c : Client} (registered : c.state.isRegistered = true) :
    Moves none
      (PeerSlot.flush (if c.isIdle then (PeerSlot.keepAlive c.outbound).2 else c.outbound)).1.toList
        c c.flush.2 := by
  unfold flush
  rw [if_pos registered]
  dsimp only
  have asked : PeerSlot.Moves none [] c.outbound
      (if c.isIdle then (PeerSlot.keepAlive c.outbound).2 else c.outbound) := by
    split
    · exact PeerSlot.moves_keepAlive
    · exact PeerSlot.moves_rest none _
  generalize (if c.isIdle then (PeerSlot.keepAlive c.outbound).2 else c.outbound) = slot at asked
  have flushed := moves_outbound_of_isRegistered registered (asked.trans PeerSlot.moves_flush)
  split
  case h_1 e due =>
    rw [due] at flushed ⊢
    simpa using flushed.trans (moves_sendEnvelope _ e)
  case h_2 idle =>
    rw [idle] at flushed ⊢
    exact flushed

theorem moves_retry (c : Client) : Moves none [] c c.retry.2 := by
  unfold retry
  split
  · exact moves_of_eq rfl rfl rfl rfl
  · exact moves_rest none c

/-- Who is registered says no hello. -/
theorem retry_of_isRegistered {c : Client} (registered : c.state.isRegistered = true) :
    c.retry = (.ok 0, c) := by
  have settled := ne_registering_of_isRegistered registered
  simp [retry, isRetryDue, settled]

theorem state_retry (c : Client) : c.retry.2.state = c.state := by
  unfold retry
  split <;> rfl

theorem moves_update (c : Client) : Moves none c.builds.toList c c.update.2 := by
  unfold update builds
  by_cases gone : c.state = .disconnected
  · rw [if_pos gone, gone]
    exact moves_rest none c
  · rw [if_neg gone]
    by_cases lost : c.isLost
    · rw [if_pos lost]
      simpa [lost] using moves_close none c _
    · rw [if_neg lost]
      by_cases registered : c.state.isRegistered
      · simpa [retry_of_isRegistered registered, registered, lost] using moves_flush registered
      · have still := c.state_retry
        have retried := moves_retry c
        simp only [registered, Bool.false_and, Bool.false_eq_true, if_false, Option.toList_none]
        split
        case h_1 error c' result =>
          rw [result] at retried
          exact retried
        case h_2 n c' result =>
          rw [result] at retried still
          have unregistered : c'.state.isRegistered = false := by
            rw [still]
            simpa using registered
          simpa [flush, unregistered] using retried

/-! ## Envelopes -/

/-- Whether an envelope that arrives now is taken in. -/
def accepts (c : Client) (e : Envelope) : Bool :=
  c.state.isRegistered && e.order.isNewer c.inbound.watermark

/-- The guaranteed commands of an envelope that arrives now which are handed to all the handlers. -/
def hands (c : Client) (e : Envelope) : List Command :=
  if c.accepts e then e.freshCommands c.inbound.watermark else []

theorem moves_perform {e : Envelope} {watermark : Option OrderNumber} {call : Call ClientHandler}
    (belongs : call.Belongs e watermark) (c : Client) :
    Moves (some e) [] c (receiver.perform call c) := by
  match call, belongs with
  | .guaranteed .peer _, _ => exact moves_rest _ c
  | .guaranteed (.application _) _, fresh =>
    exact moves_of_told rfl rfl rfl (.deliver _ ⟨e, rfl, e.freshCommands_subset watermark fresh⟩)
  | .acknowledge _, ⟨_, own⟩ =>
    subst own
    exact moves_outbound (PeerSlot.moves_acknowledge rfl)
  | .unreliable .peer _, carried => exact moves_outbound (PeerSlot.moves_heed rfl carried)
  | .unreliable (.application _) _, carried =>
    exact moves_of_told rfl rfl rfl (.deliver _ ⟨e, rfl, List.mem_append_right _ carried⟩)

theorem moves_performAll (c : Client) (e : Envelope) :
    Moves (some e) [] c (receiver.performAll (e.calls c.inbound.watermark c.handlers) c) := by
  refine receiver.performAll_induct (moves_rest _ c) ?_
  intro call made c' moved
  exact moved.trans (moves_perform (Call.belongs_of_mem_calls made) c')

/-- What an envelope from the server does to a client. -/
theorem takeDatagram_envelope (c : Client) {bytes : List UInt8} {sequence : UInt32} {e : Envelope}
    (carried : Wire.decode bytes = .ok (.numbered sequence (.envelope e))) :
    (c.accepts e = false → Moves none [] c (c.takeDatagram c.server bytes)) ∧
    (c.accepts e = true → ∃ c', Moves (some e) [] c c' ∧
      c.takeDatagram c.server bytes = { c' with inbound := ⟨some e.order⟩ }) := by
  have valid : (Packet.numbered sequence (.envelope e)).header.isValid = true := by
    simp [Packet.numbered, Header.isValid]
  unfold takeDatagram accepts
  rw [if_neg (by simp)]
  simp only [carried, valid, Bool.true_and]
  by_cases gone : c.state = .disconnected
  · simp only [gone, ClientState.isRegistered, Bool.false_and]
    exact ⟨fun _ => moves_rest none c, fun taken => by cases taken⟩
  · have noticed (heard : Option Envelope) : Moves heard [] c { c with lastReceived := c.now } :=
      moves_of_eq rfl rfl rfl rfl
    simp only [gone, ne_eq, not_false_eq_true, decide_true, if_true, takePacket, Packet.numbered,
      takeEnvelope]
    by_cases registered : c.state.isRegistered
    · simp only [registered, if_true, Bool.true_and, Receiver.receive_eq, Inbound.take]
      constructor
      · intro old
        simp only [old, Bool.false_eq_true, if_false]
        exact noticed none
      · intro newer
        simp only [newer, if_true]
        exact ⟨_, (noticed _).trans (moves_performAll { c with lastReceived := c.now } e), rfl⟩
    · simp only [registered, Bool.false_eq_true, if_false, Bool.false_and]
      exact ⟨fun _ => noticed none, fun taken => by cases taken⟩

/-! ## Connects -/

theorem connect_restarts (c : Client) (nonce : Nonce) :
    (c.connect nonce).2.seat = PeerSlot.connected ∧ (c.connect nonce).2.Tidy ∧
    (c.connect nonce).2.inbound = {} :=
  ⟨rfl, fun _ => rfl, rfl⟩

end DatagramSession.Client
