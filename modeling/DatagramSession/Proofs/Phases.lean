import DatagramSession.Proofs.Clients
import DatagramSession.Proofs.SlotMaps
import DatagramSession.Proofs.Transports
/-!
# Where the session of a client stands

A client has its state, its id, the reason why its session ended and its outbound state in a place
of its own each.  `SessionCells` are the four of them with the server's address, and a `Phase` is a
combination that occurs.  Every call of the application is an equation between cells: it begins a
session, it ends the one there is (`SessionCells.ended`) or it leaves them as they are.  An update
ends the session exactly if the server was silent for too long or the envelope that is due is too
large (`Client.cells_update`).
-/
namespace DatagramSession

open Wire (envelopeSize)

/-- What a client keeps of its session. -/
structure SessionCells where
  server : Address
  state : ClientState
  id : Option ConnectionId
  closeReason : Option String
  /-- There is an outbound state. -/
  seated : Bool
  deriving DecidableEq, Repr

/-- The session has ended, unless it was over before. -/
def SessionCells.ended (x : SessionCells) (reason : String) : SessionCells :=
  if x.state = .disconnected then x
  else { x with state := .disconnected, closeReason := some reason, seated := false }

/-- Where a session stands. -/
inductive Phase where
  /-- There was none yet. -/
  | fresh
  | registering
  | registered (id : ConnectionId)
  | ready (id : ConnectionId)
  /-- It has ended.  The id stays, if it ever had one. -/
  | ended (id : Option ConnectionId) (reason : String)
  deriving DecidableEq, Repr

namespace Phase

/-- What a client of this server keeps. -/
def cells (server : Address) : Phase → SessionCells
  | fresh => ⟨server, .disconnected, none, none, false⟩
  | registering => ⟨server, .registering, none, none, false⟩
  | registered id => ⟨server, .registered, some id, none, true⟩
  | ready id => ⟨server, .ready, some id, none, true⟩
  | ended id reason => ⟨server, .disconnected, id, some reason, false⟩

/-- The id that the client has or had last. -/
def id? : Phase → Option ConnectionId
  | fresh | registering => none
  | registered id | ready id => some id
  | ended id _ => id

/-- There is a session. -/
def isOn : Phase → Bool
  | registering | registered _ | ready _ => true
  | fresh | ended _ _ => false

variable {server : Address}

theorem cells_injective {p q : Phase} (same : p.cells server = q.cells server) : p = q := by
  cases p <;> cases q <;> simp_all [cells]

theorem isOn_iff (p : Phase) : p.isOn = true ↔ (p.cells server).state ≠ .disconnected := by
  cases p <;> simp [isOn, cells]

theorem isOn_of_isRegistered (p : Phase) (registered : (p.cells server).state.isRegistered = true) :
    p.isOn = true := by
  cases p with
  | registering | registered | ready => rfl
  | fresh | ended => cases registered

theorem server_cells (p : Phase) : (p.cells server).server = server := by
  cases p <;> rfl

theorem seated_cells (p : Phase) :
    (p.cells server).seated = (p.cells server).state.isRegistered := by
  cases p <;> rfl

/-- Who is registered has an id. -/
theorem isSome_id (p : Phase) (registered : (p.cells server).state.isRegistered = true) :
    (p.cells server).id.isSome = true := by
  cases p with
  | registered | ready => rfl
  | fresh | registering | ended => cases registered

theorem cells_ended (p : Phase) (reason : String) :
    (p.cells server).ended reason = if p.isOn then (ended p.id? reason).cells server else
      p.cells server := by
  cases p <;> rfl

end Phase

namespace Client

def cells (c : Client) : SessionCells :=
  ⟨c.server, c.state, c.id, c.closeReason, c.outbound.isSome⟩

theorem cells_send (c : Client) (body : Body) : (c.send body).2.cells = c.cells :=
  rfl

theorem cells_close (c : Client) (reason : String) :
    (c.close reason).cells = c.cells.ended reason := by
  unfold close SessionCells.ended
  split
  case isTrue off => exact (if_pos off).symm
  case isFalse on => exact (if_neg on).symm

theorem cells_connect (c : Client) (nonce : Nonce) :
    (c.connect nonce).2.cells = Phase.registering.cells c.server :=
  rfl

theorem cells_outbound {c : Client} {slot : PeerSlot} (kept : slot.isSome = c.outbound.isSome) :
    { c with outbound := slot }.cells = c.cells := by
  simp [cells, kept]

theorem cells_enqueue (c : Client) (command : Command) : (c.enqueue command).2.cells = c.cells :=
  cells_outbound (PeerSlot.isSome_enqueue command c.outbound)

theorem cells_disconnect (c : Client) :
    c.disconnect.2.cells = c.cells.ended "Client disconnected" := by
  unfold disconnect
  split
  case isTrue off => exact (if_pos off).symm
  case isFalse => exact cells_close (c.send .disconnect).2 _

/-! ## Updates -/

theorem cells_retry (c : Client) : c.retry.2.cells = c.cells := by
  unfold retry
  split <;> rfl

theorem cells_sendEnvelope (c : Client) (e : Envelope) : (c.sendEnvelope e).2.cells =
    if maxPacketSize < envelopeSize e then
      c.cells.ended "Outgoing history exceeds the packet size limit"
    else c.cells := by
  have kept := c.cells_send (.envelope e)
  unfold sendEnvelope
  by_cases large : maxPacketSize < envelopeSize e
  · have sent : (c.send (.envelope e)).1 = .error (.tooLarge (envelopeSize e)) :=
      congrArg Prod.fst (c.transport.send_of_large c.server
        (p := .numbered c.sequence (.envelope e)) large)
    rw [if_pos large, ← kept]
    generalize c.send (.envelope e) = outcome at sent
    obtain ⟨result, c'⟩ := outcome
    subst sent
    exact cells_close (c'.send .disconnect).2 _
  · have sent (size : Nat) : (c.send (.envelope e)).1 ≠ .error (.tooLarge size) :=
      c.transport.send_of_fits c.server (p := .numbered c.sequence (.envelope e))
        (Nat.le_of_not_lt large) size
    rw [if_neg large]
    generalize c.send (.envelope e) = outcome at sent kept
    obtain ⟨result, c'⟩ := outcome
    split
    case h_1 out =>
      cases out
      exact kept
    case h_2 size _ out =>
      cases out
      exact absurd rfl (sent size)
    case h_3 out =>
      cases out
      exact kept

/-- The envelope that is due is too large. -/
def isOverfull (c : Client) : Bool :=
  c.builds.any fun e => decide (maxPacketSize < envelopeSize e)

theorem isOverfull_of_not_isRegistered {c : Client} (idle : c.state.isRegistered = false) :
    c.isOverfull = false := by
  simp [isOverfull, builds, idle]

theorem cells_flush {c : Client} (heard : c.isLost = false) : c.flush.2.cells =
    if c.isOverfull then c.cells.ended "Outgoing history exceeds the packet size limit"
    else c.cells := by
  by_cases registered : c.state.isRegistered = true
  · have asked : (if c.isIdle then (PeerSlot.keepAlive c.outbound).2 else c.outbound).isSome =
        c.outbound.isSome := by
      split
      · exact PeerSlot.isSome_keepAlive c.outbound
      · rfl
    simp only [flush, isOverfull, builds, registered, heard, if_true, Bool.not_false, Bool.and_true]
    generalize (if c.isIdle then (PeerSlot.keepAlive c.outbound).2 else c.outbound) = slot at asked
    have kept : { c with outbound := (PeerSlot.flush slot).2 }.cells = c.cells :=
      cells_outbound ((PeerSlot.isSome_flush slot).trans asked)
    cases (PeerSlot.flush slot).1 with
    | none => simpa using kept
    | some e =>
      simpa [kept] using cells_sendEnvelope { c with outbound := (PeerSlot.flush slot).2 } e
  · have idle : c.state.isRegistered = false := by simpa using registered
    simp [flush, idle, isOverfull_of_not_isRegistered idle]

theorem cells_update (c : Client) : c.update.2.cells =
    if c.isLost then c.cells.ended "Server connection lost"
    else if c.isOverfull then c.cells.ended "Outgoing history exceeds the packet size limit"
    else c.cells := by
  unfold update
  by_cases off : c.state = .disconnected
  · have ended (reason : String) : c.cells.ended reason = c.cells := if_pos off
    simp [off, ended]
  · rw [if_neg off]
    split
    case isTrue => exact c.cells_close _
    case isFalse heard =>
      by_cases registered : c.state.isRegistered = true
      · rw [retry_of_isRegistered registered]
        exact cells_flush (by simpa using heard)
      · have idle : c.state.isRegistered = false := by simpa using registered
        have still := c.state_retry
        have kept := c.cells_retry
        simp only [isOverfull_of_not_isRegistered idle, Bool.false_eq_true, if_false]
        generalize c.retry = outcome at still kept
        obtain ⟨result, c'⟩ := outcome
        cases result with
        | error => exact kept
        | ok =>
          have idle' : c'.state.isRegistered = false := still ▸ idle
          simpa [flush, idle'] using kept

end Client
end DatagramSession
