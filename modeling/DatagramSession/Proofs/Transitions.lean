import DatagramSession.Proofs.Oversized
import DatagramSession.Proofs.Reconnects
import DatagramSession.Proofs.Replies
/-!
# What moves a client's session

`Client.Input` is whatever may happen to a client, with datagrams of anybody, and
`Client.Transition` lists what moves its session from one phase to another.  Every client that was
created is in a phase, whatever has happened to it, and the phase changes by these transitions and
by nothing else (`phase_of_after`).  One of them is out of place: unreliable commands are in one
envelope only, and yet they end the session if they make that envelope too large
(`overloaded_without_history`).
-/
namespace DatagramSession

/-- The datagram ends the session. -/
def Wire.isGoodbye (bytes : List UInt8) : Bool :=
  match decode bytes with
  | .ok ⟨header, .disconnect⟩ => header.isValid
  | _ => false

/-- A control message was applied. -/
def SessionCells.told (x : SessionCells) : ControlMessage → SessionCells
  | .registered id =>
    if x.state = .registering then { x with state := .registered, id := some id, seated := true }
    else x
  | .servicesReady => if x.state = .registered then { x with state := .ready } else x
  | .kick reason => x.ended reason
  | .confirm => x

namespace Client

/-! ## Datagrams -/

/-- The control message of a datagram that a client applies.  A frame that asks for a confirmation
has to be newer than the last one that did. -/
def applies? (c : Client) (bytes : List UInt8) : Option ControlMessage :=
  ((Wire.frame? bytes).filter fun f => !f.confirms || f.order.isNewer c.controlWatermark).map
    ControlFrame.message

section
variable {c : Client} {bytes : List UInt8}

theorem cells_applyControl (c : Client) (m : ControlMessage) :
    (c.applyControl m).cells = c.cells.told m := by
  cases m with
  | registered id =>
    simp only [applyControl, SessionCells.told]
    split
    case isTrue registering => exact (if_pos registering).symm
    case isFalse other => exact (if_neg other).symm
  | servicesReady =>
    simp only [applyControl, SessionCells.told]
    split
    case isTrue registered => exact (if_pos registered).symm
    case isFalse other => exact (if_neg other).symm
  | kick reason => exact c.cells_close reason
  | confirm => rfl

theorem cells_takeControl (c : Client) (f : ControlFrame) : (c.takeControl f).cells =
    if !f.confirms || f.order.isNewer c.controlWatermark then c.cells.told f.message
    else c.cells := by
  cases asks : f.confirms with
  | false =>
    rw [takeControl, asks]
    exact c.cells_applyControl f.message
  | true =>
    rw [takeControl_eq c asks]
    dsimp only
    split
    case isTrue newer =>
      have newer' : f.order.isNewer c.controlWatermark = true := newer
      rw [cells_applyControl, if_pos (by simp [newer'])]
      rfl
    case isFalse older =>
      have older' : ¬ f.order.isNewer c.controlWatermark = true := older
      rw [if_neg (by simp [older'])]
      rfl

theorem cells_perform (call : Call ClientHandler) (c : Client) :
    (receiver.perform call c).cells = c.cells := by
  match call with
  | .guaranteed .peer _ | .guaranteed (.application _) _ | .unreliable (.application _) _ => rfl
  | .acknowledge ack => exact c.cells_enqueue ack
  | .unreliable .peer command => exact cells_outbound (PeerSlot.isSome_heed command c.outbound)

/-- An envelope does not touch the session. -/
theorem cells_takeEnvelope (c : Client) (e : Envelope) : (c.takeEnvelope e).cells = c.cells := by
  unfold takeEnvelope
  split
  · simp only [Receiver.receive_eq]
    split
    · have performed := receiver.performAll_induct (motive := fun c' => c'.cells = c.cells) rfl
        fun call (_ : call ∈ e.calls c.inbound.watermark c.handlers) c' kept =>
        (cells_perform call c').trans kept
      exact performed
    · rfl
  · rfl

theorem cells_of_applies? (on : c.state ≠ .disconnected) {m : ControlMessage}
    (told : c.applies? bytes = some m) :
    (c.takeDatagram c.server bytes).cells = c.cells.told m := by
  obtain ⟨f, admitted, rfl⟩ := Option.map_eq_some_iff.1 told
  obtain ⟨frame, admits⟩ := Option.filter_eq_some_iff.1 admitted
  rw [takeDatagram_of_frame frame on, cells_takeControl]
  exact if_pos admits

theorem cells_of_isGoodbye (on : c.state ≠ .disconnected) (goodbye : Wire.isGoodbye bytes = true) :
    (c.takeDatagram c.server bytes).cells = c.cells.ended "Server closed the connection" := by
  unfold Wire.isGoodbye at goodbye
  split at goodbye
  case h_1 header decoded =>
    have closes : c.takeDatagram c.server bytes =
        { c with lastReceived := c.now }.close "Server closed the connection" := by
      simp [takeDatagram, decoded, goodbye, on, takePacket]
    rw [closes]
    exact cells_close { c with lastReceived := c.now } _
  case h_2 => cases goodbye

theorem takeDatagram_of_other {source : Address} (other : source ≠ c.server) (bytes : List UInt8) :
    c.takeDatagram source bytes = c :=
  if_pos other

/-- What cannot be decoded or is not of this protocol is not looked at. -/
theorem takeDatagram_of_invalid (c : Client) (source : Address)
    (invalid : ∀ p, Wire.decode bytes = .ok p → p.header.isValid = false) :
    c.takeDatagram source bytes = c := by
  unfold takeDatagram
  split
  · rfl
  · cases decoded : Wire.decode bytes with
    | error => rfl
    | ok p => simp [invalid p decoded]

/-- A datagram that does not say anything to the session. -/
theorem cells_of_plain (untold : c.applies? bytes = none) (stays : Wire.isGoodbye bytes = false) :
    (c.takeDatagram c.server bytes).cells = c.cells := by
  by_cases off : c.state = .disconnected
  · rw [takeDatagram_of_disconnected off]
  · cases frame : Wire.frame? bytes with
    | some f =>
      have unadmitted : ¬ (!f.confirms || f.order.isNewer c.controlWatermark) = true := by
        simpa [applies?, frame, Option.filter] using untold
      rw [takeDatagram_of_frame frame off, cells_takeControl]
      exact if_neg unadmitted
    | none =>
      unfold takeDatagram
      unfold Wire.frame? at frame
      unfold Wire.isGoodbye at stays
      rw [if_neg (by simp)]
      cases decoded : Wire.decode bytes with
      | error => rfl
      | ok p =>
        obtain ⟨header, body⟩ := p
        dsimp only
        split
        case isFalse => rfl
        case isTrue heard =>
          have valid : header.isValid = true := (Bool.and_eq_true_iff.1 heard).1
          cases body with
          | control f => simp [decoded, valid] at frame
          | envelope e => exact cells_takeEnvelope { c with lastReceived := c.now } e
          | disconnect => simp [decoded, valid] at stays
          | register => rfl

end

/-! ## Inputs -/

/-- What may happen to a client. -/
inductive Input where
  | connect (nonce : Nonce)
  | update
  | disconnect
  | enqueue (command : Command)
  | elapse (d : Duration)
  /-- A datagram arrives, from wherever it may come. -/
  | datagram (source : Address) (bytes : List UInt8)
  /-- The network takes datagrams from the outbox, or the link changes what it refuses. -/
  | relink (transport : Transport)
  /-- The application changes its handlers. -/
  | rehandle (handlers : List ClientHandler)
  | takeDeliveries

def Input.isConnect : Input → Bool
  | connect _ => true
  | _ => false

def on (c : Client) : Input → Client
  | .connect nonce => (c.connect nonce).2
  | .update => c.update.2
  | .disconnect => c.disconnect.2
  | .enqueue command => (c.enqueue command).2
  | .elapse d => c.elapse d
  | .datagram source bytes => c.takeDatagram source bytes
  | .relink transport => { c with transport }
  | .rehandle handlers => { c with handlers }
  | .takeDeliveries => c.takeDeliveries.2

/-- The client after one thing after the other has happened. -/
def after (c : Client) (inputs : List Input) : Client :=
  inputs.foldl on c

theorem after_concat (c : Client) (inputs : List Input) (i : Input) :
    c.after (inputs ++ [i]) = (c.after inputs).on i :=
  List.foldl_concat ..

/-- A client that has not done anything yet. -/
def created (config : ClientConfig) (server : Address) (handlers : List ClientHandler)
    (transport : Transport) (now : Instant) : Client :=
  { config, server, handlers, transport, now, lastReceived := now, lastSent := now }

/-- What moves the session of a client from one phase to another. -/
inductive Transition (c : Client) : Input → Phase → Phase → Prop where
  | connect (nonce : Nonce) (p : Phase) : Transition c (.connect nonce) p .registering
  | registered {bytes : List UInt8} {id : ConnectionId}
      (told : c.applies? bytes = some (.registered id)) :
      Transition c (.datagram c.server bytes) .registering (.registered id)
  | ready {bytes : List UInt8} {id : ConnectionId} (told : c.applies? bytes = some .servicesReady) :
      Transition c (.datagram c.server bytes) (.registered id) (.ready id)
  | kicked {p : Phase} {bytes : List UInt8} {reason : String} (running : p.isOn = true)
      (told : c.applies? bytes = some (.kick reason)) :
      Transition c (.datagram c.server bytes) p (.ended p.id? reason)
  | dismissed {p : Phase} {bytes : List UInt8} (running : p.isOn = true)
      (goodbye : Wire.isGoodbye bytes = true) :
      Transition c (.datagram c.server bytes) p (.ended p.id? "Server closed the connection")
  /-- Nothing was heard for longer than the timeout. -/
  | lost {p : Phase} (running : p.isOn = true) (silent : c.isLost = true) :
      Transition c .update p (.ended p.id? "Server connection lost")
  /-- What is unconfirmed is too large for an envelope, now and until some of it is confirmed. -/
  | outgrown {p : Phase} {o : Outbound} (due : o ∈ c.due) (stuck : o.Stuck) :
      Transition c .update p (.ended p.id? "Outgoing history exceeds the packet size limit")
  /-- The unreliable commands of this tick are too much. -/
  | overloaded {p : Phase} {o : Outbound} (due : o ∈ c.due) (overloaded : o.Overloaded) :
      Transition c .update p (.ended p.id? "Outgoing history exceeds the packet size limit")
  | left {p : Phase} (running : p.isOn = true) :
      Transition c .disconnect p (.ended p.id? "Client disconnected")

section
variable {c : Client} {server : Address} {i : Input} {p q : Phase}

theorem server_eq (stands : c.cells = p.cells server) : c.server = server :=
  (congrArg SessionCells.server stands).trans p.server_cells

theorem state_eq (stands : c.cells = p.cells server) : c.state = (p.cells server).state :=
  congrArg SessionCells.state stands

theorem closeReason_eq (stands : c.cells = p.cells server) :
    c.closeReason = (p.cells server).closeReason :=
  congrArg SessionCells.closeReason stands

theorem state_of_isOn (stands : c.cells = p.cells server) (running : p.isOn = true) :
    c.state ≠ .disconnected := by
  rw [state_eq stands]
  exact p.isOn_iff.1 running

theorem cells_ended_of_isOn (stands : c.cells = p.cells server) (running : p.isOn = true)
    (reason : String) :
    c.cells.ended reason = (Phase.ended p.id? reason).cells server := by
  rw [stands, p.cells_ended, if_pos running]

/-- An envelope is due only while the session is on and the server has not been silent for too
long. -/
theorem isOn_of_mem_due {o : Outbound} (stands : c.cells = p.cells server) (due : o ∈ c.due) :
    p.isOn = true ∧ c.isLost = false := by
  unfold Client.due at due
  split at due
  case isTrue awake =>
    obtain ⟨registered, heard⟩ := Bool.and_eq_true_iff.1 awake
    exact ⟨p.isOn_of_isRegistered (state_eq stands ▸ registered), by simpa using heard⟩
  case isFalse => cases due

theorem cells_of_due {o : Outbound} (stands : c.cells = p.cells server) (due : o ∈ c.due)
    (large : o.Stuck ∨ o.Overloaded) :
    c.update.2.cells = (Phase.ended p.id? "Outgoing history exceeds the packet size limit").cells
      server := by
  obtain ⟨running, heard⟩ := isOn_of_mem_due stands due
  have overfull : c.isOverfull = true := c.isOverfull_iff.2 ⟨o, due, large⟩
  rw [cells_update, heard, overfull]
  exact cells_ended_of_isOn stands running _

/-- A transition does take place. -/
theorem Transition.cells (move : Transition c i p q) (stands : c.cells = p.cells server) :
    (c.on i).cells = q.cells server := by
  cases move with
  | connect nonce => exact server_eq stands ▸ c.cells_connect nonce
  | registered told =>
    have registering : c.state = .registering := state_eq stands
    refine (cells_of_applies? (by rw [registering]; nofun) told).trans ?_
    rw [stands]
    rfl
  | ready told =>
    have registered : c.state = .registered := state_eq stands
    refine (cells_of_applies? (by rw [registered]; nofun) told).trans ?_
    rw [stands]
    rfl
  | kicked running told =>
    exact (cells_of_applies? (state_of_isOn stands running) told).trans
      (cells_ended_of_isOn stands running _)
  | dismissed running goodbye =>
    exact (cells_of_isGoodbye (state_of_isOn stands running) goodbye).trans
      (cells_ended_of_isOn stands running _)
  | lost running silent =>
    refine c.cells_update.trans ?_
    rw [if_pos silent]
    exact cells_ended_of_isOn stands running _
  | outgrown due stuck => exact cells_of_due stands due (.inl stuck)
  | overloaded due overloaded => exact cells_of_due stands due (.inr overloaded)
  | left running => exact c.cells_disconnect.trans (cells_ended_of_isOn stands running _)

theorem cells_ended_of_off (stands : c.cells = p.cells server) (closed : ¬ p.isOn = true)
    (reason : String) :
    c.cells.ended reason = p.cells server := by
  rw [stands, p.cells_ended, if_neg closed]

/-- A message that does not fit the phase. -/
theorem cells_of_told {bytes : List UInt8} (stands : c.cells = p.cells server)
    (still : ∀ q, ¬ Transition c (.datagram c.server bytes) p q) {m : ControlMessage}
    (told : c.applies? bytes = some m) : (p.cells server).told m = p.cells server := by
  cases m with
  | registered id =>
    cases p with
    | registering => exact absurd (.registered told) (still _)
    | fresh | registered | ready | ended => rfl
  | servicesReady =>
    cases p with
    | registered id => exact absurd (.ready told) (still _)
    | fresh | registering | ready | ended => rfl
  | kick reason =>
    have closed : ¬ p.isOn = true := fun running => still _ (.kicked running told)
    exact (p.cells_ended reason).trans (if_neg closed)
  | confirm => rfl

/-- Without a transition the session stays where it is. -/
theorem cells_of_not_transition (stands : c.cells = p.cells server)
    (still : ∀ q, ¬ Transition c i p q) :
    (c.on i).cells = p.cells server := by
  cases i with
  | connect nonce => exact absurd (.connect nonce p) (still _)
  | update =>
    refine c.cells_update.trans ?_
    split
    case isTrue silent =>
      exact cells_ended_of_off stands (fun running => still _ (.lost running silent)) _
    case isFalse =>
      have fits : ¬ c.isOverfull = true := by
        rw [isOverfull_iff]
        rintro ⟨o, due, stuck | overloaded⟩
        · exact still _ (.outgrown due stuck)
        · exact still _ (.overloaded due overloaded)
      rw [if_neg fits]
      exact stands
  | disconnect =>
    refine c.cells_disconnect.trans ?_
    exact cells_ended_of_off stands (fun running => still _ (.left running)) _
  | enqueue command => exact (c.cells_enqueue command).trans stands
  | datagram source bytes =>
    show (c.takeDatagram source bytes).cells = _
    by_cases own : source = c.server
    · subst own
      by_cases off : c.state = .disconnected
      · rw [takeDatagram_of_disconnected off]
        exact stands
      · cases told : c.applies? bytes with
        | some m =>
          rw [cells_of_applies? off told, stands]
          exact cells_of_told stands still told
        | none =>
          cases goodbye : Wire.isGoodbye bytes with
          | true =>
            rw [cells_of_isGoodbye off goodbye]
            exact cells_ended_of_off stands (fun running => still _ (.dismissed running goodbye)) _
          | false => exact (cells_of_plain told goodbye).trans stands
    · rw [takeDatagram_of_other own]
      exact stands
  | elapse | relink | rehandle | takeDeliveries => exact stands

/-- The next phase is the one that a transition leads to, or else the same. -/
theorem cells_on_iff (stands : c.cells = p.cells server) : (c.on i).cells = q.cells server ↔
    Transition c i p q ∨ q = p ∧ ∀ r, ¬ Transition c i p r := by
  constructor
  · intro there
    by_cases moves : ∃ r, Transition c i p r
    · obtain ⟨r, move⟩ := moves
      have same : q = r := Phase.cells_injective (there.symm.trans (move.cells stands))
      exact .inl (same ▸ move)
    · have still : ∀ r, ¬ Transition c i p r := not_exists.1 moves
      have same : q = p :=
        Phase.cells_injective (there.symm.trans (cells_of_not_transition stands still))
      exact .inr ⟨same, still⟩
  · rintro (move | ⟨rfl, still⟩)
    · exact move.cells stands
    · exact cells_of_not_transition stands still

/-- Every input leads from phase to phase. -/
theorem exists_phase_on (stands : c.cells = p.cells server) (i : Input) :
    ∃ q : Phase, (c.on i).cells = q.cells server := by
  by_cases moves : ∃ q, Transition c i p q
  · obtain ⟨q, move⟩ := moves
    exact ⟨q, move.cells stands⟩
  · exact ⟨p, cells_of_not_transition stands (not_exists.1 moves)⟩

theorem exists_phase_after (stands : c.cells = p.cells server) (inputs : List Input) :
    ∃ q : Phase, (c.after inputs).cells = q.cells server := by
  induction inputs generalizing c p with
  | nil => exact ⟨p, stands⟩
  | cons i rest ih =>
    obtain ⟨q, there⟩ := exists_phase_on stands i
    exact ih there

/-- A session that is not on is begun by a connect and by nothing else. -/
theorem Transition.isConnect (move : Transition c i p q) (stands : c.cells = p.cells server)
    (closed : p.isOn = false) : i.isConnect = true := by
  have shut : ¬ p.isOn = true := by simp [closed]
  cases move with
  | connect => rfl
  | registered | ready => cases closed
  | kicked running | dismissed running | lost running | left running => exact absurd running shut
  | outgrown due | overloaded due => exact absurd (isOn_of_mem_due stands due).1 shut

/-- What is over stays as it is until the next connect. -/
theorem cells_after_of_off (stands : c.cells = p.cells server) (closed : p.isOn = false)
    {inputs : List Input} (unconnected : ∀ i ∈ inputs, i.isConnect = false) :
    (c.after inputs).cells = p.cells server := by
  induction inputs generalizing c with
  | nil => exact stands
  | cons i rest ih =>
    obtain ⟨first, later⟩ := List.forall_mem_cons.1 unconnected
    have still (q : Phase) : ¬ Transition c i p q := by
      intro move
      rw [move.isConnect stands closed] at first
      cases first
    exact ih (cells_of_not_transition stands still) later

end

/-- Whatever has happened to a client and whatever it was sent: it is in a phase, and the next thing
that happens moves it by a transition or not at all.  Commands are queued exactly while it is
registered, and then it has an id.  While it is disconnected, nothing changes anything but a
connect, and datagrams of others or of other protocols never do. -/
theorem phase_of_after (config : ClientConfig) (server : Address) (handlers : List ClientHandler)
    (transport : Transport) (now : Instant) (inputs : List Input) :
    let c := (created config server handlers transport now).after inputs
    ∃ p : Phase, c.cells = p.cells server ∧
      (∀ i q, (c.on i).cells = q.cells server ↔ Transition c i p q ∨ q = p ∧ ∀ r,
        ¬ Transition c i p r) ∧
      c.outbound.isSome = c.state.isRegistered ∧
      (∀ command, (c.enqueue command).1 =
        (c.state.isRegistered && decide (command.payload.length ≤ maxPayloadSize))) ∧
      (c.state.isRegistered = true → c.id.isSome = true) ∧
      (c.state = .disconnected →
        c.update = (.ok 0, c) ∧ c.disconnect = (.ok 0, c) ∧
        (∀ source bytes, c.takeDatagram source bytes = c) ∧
        ∀ more, (∀ i ∈ more, i.isConnect = false) → (c.after more).cells = c.cells) ∧
      ∀ source bytes, (source ≠ server ∨ ∀ p, Wire.decode bytes = .ok p →
        p.header.isValid = false) →
        c.takeDatagram source bytes = c := by
  intro c
  obtain ⟨p, stands⟩ : ∃ p : Phase, c.cells = p.cells server :=
    exists_phase_after (p := .fresh) rfl inputs
  have state := state_eq stands
  have id : c.id = (p.cells server).id := congrArg SessionCells.id stands
  have seated : c.outbound.isSome = c.state.isRegistered := by
    have seat : c.outbound.isSome = (p.cells server).seated := congrArg SessionCells.seated stands
    rw [seat, state, p.seated_cells]
  refine ⟨p, stands, fun i q => cells_on_iff stands, seated, fun command => ?_,
    fun registered => ?_, fun off => ?_, fun source bytes foreign => ?_⟩
  · rw [← seated]
    by_cases short : command.payload.length ≤ maxPayloadSize <;>
      simp [enqueue, PeerSlot.enqueue, short]
  · rw [state] at registered
    rw [id]
    exact p.isSome_id registered
  · have closed : p.isOn = false := by
      by_contra running
      exact state_of_isOn stands (by simpa using running) off
    refine ⟨if_pos off, if_pos off, takeDatagram_of_disconnected off, fun more unconnected => ?_⟩
    exact (cells_after_of_off stands closed unconnected).trans stands.symm
  · rcases foreign with other | invalid
    · exact takeDatagram_of_other (server_eq stands ▸ other) bytes
    · exact c.takeDatagram_of_invalid source invalid

/-- A client that is ready is kicked, and the reason stays until it connects again. -/
theorem phase_of_after_kick :
    let server : Address := ⟨.v4 167772161, 7000⟩
    let ready := Sessions.datagramOf (.numbered 1 (.control (.numbered 1 .servicesReady true)))
    let kick := Sessions.datagramOf (.numbered 2 (.control (.numbered 2 (.kick "bye") true)))
    let c := (created {} server [.peer] {} 0).after
      [.connect 7, .datagram server (Sessions.datagramOf (Sessions.welcomeOf 5)),
        .datagram server ready]
    c.cells = (Phase.ready 5).cells server ∧
      (c.on (.datagram server kick)).cells = (Phase.ended (some 5) "bye").cells server ∧
      ∀ more, (∀ i ∈ more, i.isConnect = false) →
        ((c.on (.datagram server kick)).after more).closeReason = some "bye" := by
  intro server ready kick c
  let inputs : List Input :=
    [.connect 7, .datagram server (Sessions.datagramOf (Sessions.welcomeOf 5)),
      .datagram server ready]
  have stands : c.cells = (Phase.ready 5).cells server := by decide +kernel
  have told : c.applies? kick = some (.kick "bye") := by decide +kernel
  have move : Transition c (.datagram c.server kick) (.ready 5) (.ended (some 5) "bye") :=
    .kicked rfl told
  rw [server_eq stands] at move
  obtain ⟨p, stands', moves, _⟩ := phase_of_after {} server [.peer] {} 0 inputs
  obtain rfl : Phase.ready 5 = p := Phase.cells_injective (stands.symm.trans stands')
  have kicked := (moves _ _).2 (.inl move)
  have later := phase_of_after {} server [.peer] {} 0 (inputs ++ [.datagram server kick])
  rw [after_concat] at later
  obtain ⟨_, _, _, _, _, _, closed, _⟩ := later
  obtain ⟨_, _, _, kept⟩ := closed (state_eq kicked)
  exact ⟨stands, kicked,
    fun more unconnected => closeReason_eq ((kept more unconnected).trans kicked)⟩

/-! ## Unreliable commands alone -/

theorem outbound_enqueue {c : Client} {o : Outbound} (slot : c.outbound = some o)
    {command : Command} (short : command.payload.length ≤ maxPayloadSize) :
    (c.enqueue command).2.outbound = some (o.push command) := by
  simp [enqueue, PeerSlot.enqueue, slot, short]

theorem isLost_enqueue (c : Client) (command : Command) : (c.enqueue command).2.isLost = c.isLost :=
  rfl

theorem due_of_outbound {c : Client} {o : Outbound} (registered : c.state = .registered)
    (heard : c.isLost = false) (slot : c.outbound = some o) (asked : o.isDue = true) :
    c.due = some o := by
  simp [Client.due, registered, heard, slot, asked, Option.filter, ClientState.isRegistered]

/-- Two unreliable commands end the session of any client that has nothing unconfirmed and nothing
else to send. -/
theorem ended_by_bulk {c : Client} {server : Address} {id : ConnectionId}
    (stands : c.cells = (Phase.registered id).cells server) (heard : c.isLost = false)
    (slot : c.outbound = some {}) :
    let c' := ((c.enqueue (bulk .unreliable)).2.enqueue (bulk .unreliable)).2
    c'.cells = (Phase.registered id).cells server ∧ c'.isLost = false ∧
      (∃ o ∈ c'.due, o.history = [] ∧ o.guaranteed = [] ∧ ¬ o.Stuck) ∧
      c'.update.2.cells =
        (Phase.ended (some id) "Outgoing history exceeds the packet size limit").cells server := by
  intro c'
  let o : Outbound := { unreliable := [bulk .unreliable, bulk .unreliable], asked := true }
  have registered : c'.cells = (Phase.registered id).cells server := by
    rw [cells_enqueue, cells_enqueue, stands]
  have heard' : c'.isLost = false := by rw [isLost_enqueue, isLost_enqueue, heard]
  have short : (bulk .unreliable).payload.length ≤ maxPayloadSize := by
    rw [length_payload_bulk]
    decide
  have pushed : (({} : Outbound).push (bulk .unreliable)).push (bulk .unreliable) = o := by
    have plain : (bulk .unreliable).isGuaranteed = false := rfl
    simp [Outbound.push, plain, o]
  have queued : c'.outbound = some o := by
    rw [← pushed]
    exact outbound_enqueue (outbound_enqueue slot short) short
  have due : c'.due = some o := due_of_outbound (state_eq registered) heard' queued rfl
  have large : maxPacketSize < Wire.envelopeSize o.envelope :=
    Nat.lt_of_lt_of_le (maxPacketSize_lt_payloadsSize (length_payload_bulk .unreliable))
      (Wire.payloadsSize_le_envelopeSize o.envelope).1
  have fits : ¬ o.Stuck := by
    rw [Outbound.stuck_iff]
    decide
  exact ⟨registered, heard', ⟨o, due, rfl, rfl, fits⟩,
    cells_of_due registered due (o.too_large_iff.1 large)⟩

/-- A client that has just registered queues two unreliable commands, and the next update ends its
session, although nothing is unconfirmed. -/
theorem overloaded_without_history :
    let server : Address := ⟨.v4 167772161, 7000⟩
    let welcomed := (created {} server [.peer] {} 0).after
      [.connect 7, .datagram server (Sessions.datagramOf (Sessions.welcomeOf 5))]
    let c := ((welcomed.enqueue (bulk .unreliable)).2.enqueue (bulk .unreliable)).2
    c.cells = (Phase.registered 5).cells server ∧ c.isLost = false ∧
      (∃ o ∈ c.due, o.history = [] ∧ o.guaranteed = [] ∧ ¬ o.Stuck) ∧
      c.update.2.cells =
        (Phase.ended (some 5) "Outgoing history exceeds the packet size limit").cells server := by
  intro server welcomed c
  exact ended_by_bulk (by decide +kernel) (by decide +kernel) (by decide +kernel)

end Client
end DatagramSession
