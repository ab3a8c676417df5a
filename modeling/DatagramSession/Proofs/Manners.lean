import DatagramSession.Proofs.Clients
/-!
# What clients put into their envelopes

A client queues guaranteed commands that fit into a datagram with the ones for its next batch, and
all others beside them.  So each envelope that it builds is proper (`Client.proper_builds`): batches
hold guaranteed commands that fit, and no guaranteed command travels outside a batch.
-/
namespace DatagramSession

/-- A guaranteed command that fits into a datagram. -/
def Command.Batchable (c : Command) : Prop :=
  c.isGuaranteed = true ∧ c.payload.length ≤ maxPayloadSize

instance : DecidablePred Command.Batchable :=
  fun _ => inferInstanceAs (Decidable (_ ∧ _))

/-- Guaranteed commands travel in batches, and only such that fit. -/
structure Envelope.Proper (e : Envelope) : Prop where
  batches : ∀ b ∈ e.guaranteed, ∀ c ∈ b.commands, c.Batchable
  unreliable : ∀ c ∈ e.unreliable, c.isGuaranteed = false

/-- Each command waits where it belongs. -/
structure Outbound.Proper (o : Outbound) : Prop where
  guaranteed : ∀ c ∈ o.guaranteed, c.Batchable
  batches : ∀ b ∈ o.history, ∀ c ∈ b.commands, c.Batchable
  unreliable : ∀ c ∈ o.unreliable, c.isGuaranteed = false

namespace Outbound.Proper

variable {o : Outbound}

theorem start : Proper {} :=
  ⟨nofun, nofun, nofun⟩

theorem push (h : o.Proper) {c : Command} (fits : c.payload.length ≤ maxPayloadSize) :
    (o.push c).Proper := by
  unfold Outbound.push
  split
  case isTrue own =>
    refine ⟨fun d mem => ?_, h.batches, h.unreliable⟩
    rcases List.mem_append.1 mem with old | new
    · exact h.guaranteed d old
    · exact List.mem_singleton.1 new ▸ ⟨own, fits⟩
  case isFalse other =>
    refine ⟨h.guaranteed, h.batches, fun d mem => ?_⟩
    rcases List.mem_append.1 mem with old | new
    · exact h.unreliable d old
    · simpa [List.mem_singleton.1 new] using other

theorem confirm (h : o.Proper) (order : OrderNumber) : (o.confirm order).2.Proper :=
  ⟨h.guaranteed, fun b mem => h.batches b (List.dropWhile_sublist _ |>.subset mem), h.unreliable⟩

theorem extendedHistory (h : o.Proper) :
    ∀ b ∈ o.extendedHistory, ∀ c ∈ b.commands, c.Batchable := by
  intro b mem
  unfold Outbound.extendedHistory at mem
  split at mem
  · exact h.batches b mem
  · rcases List.mem_append.1 mem with old | new
    · exact h.batches b old
    · exact List.mem_singleton.1 new ▸ h.guaranteed

theorem envelope (h : o.Proper) : o.envelope.Proper :=
  ⟨h.extendedHistory, h.unreliable⟩

theorem flush (h : o.Proper) : o.flush.2.Proper := by
  unfold Outbound.flush
  split
  · exact ⟨nofun, h.extendedHistory, nofun⟩
  · exact h

end Outbound.Proper

namespace PeerSlot

/-- What is there is proper. -/
def Proper (slot : PeerSlot) : Prop :=
  ∀ o, slot = some o → o.Proper

variable {slot : PeerSlot}

theorem proper_none : Proper none :=
  nofun

theorem proper_connected : Proper connected := by
  rintro o ⟨⟩
  exact .start

theorem Proper.map (h : slot.Proper) {f : Outbound → Outbound}
    (kept : ∀ o, o.Proper → (f o).Proper) :
    Proper (slot.map f) := by
  intro o' present
  obtain ⟨o, here, rfl⟩ := Option.map_eq_some_iff.1 present
  exact kept o (h o here)

theorem Proper.enqueue (h : slot.Proper) (c : Command) : Proper (slot.enqueue c).2 := by
  unfold PeerSlot.enqueue
  split
  case isTrue fits => exact h.map fun _ proper => proper.push fits
  case isFalse => exact h

theorem Proper.keepAlive (h : slot.Proper) : Proper slot.keepAlive.2 :=
  h.map fun _ proper => ⟨proper.guaranteed, proper.batches, proper.unreliable⟩

theorem Proper.heed (h : slot.Proper) (c : Command) : Proper (slot.heed c) := by
  unfold PeerSlot.heed
  split
  case h_1 order _ =>
    cases slot with
    | none => exact proper_none
    | some o =>
      rintro o' ⟨⟩
      exact (h o rfl).confirm order
  case h_2 => exact h

theorem Proper.flush (h : slot.Proper) : (∀ e ∈ slot.flush.1, e.Proper) ∧ Proper slot.flush.2 := by
  cases slot with
  | none => exact ⟨nofun, proper_none⟩
  | some o =>
    have proper := h o rfl
    constructor
    · intro e built
      have built : o.flush.1 = some e := built
      unfold Outbound.flush at built
      split at built
      · cases built
        exact proper.envelope
      · cases built
    · rintro o' ⟨⟩
      exact proper.flush

end PeerSlot

namespace Client

section
variable {c c' : Client}

theorem proper_close (h : c.outbound.Proper) (reason : String) :
    (c.close reason).outbound.Proper := by
  unfold close
  split
  · exact h
  · exact PeerSlot.proper_none

theorem proper_applyControl (h : c.outbound.Proper) (m : ControlMessage) :
    (c.applyControl m).outbound.Proper := by
  cases m with
  | registered id =>
    simp only [applyControl]
    split
    · exact PeerSlot.proper_connected
    · exact h
  | servicesReady =>
    simp only [applyControl]
    split <;> exact h
  | kick reason => exact proper_close h reason
  | confirm => exact h

theorem proper_takeControl (h : c.outbound.Proper) (f : ControlFrame) :
    (c.takeControl f).outbound.Proper := by
  have sent : (c.send (.control (.numbered f.order .confirm true))).2.outbound.Proper := h
  unfold takeControl
  split
  · dsimp only
    split
    · exact proper_applyControl (c := { (c.send _).2 with controlWatermark := some f.order }) sent
        f.message
    · exact sent
  · exact proper_applyControl h f.message

theorem proper_takeEnvelope (h : c.outbound.Proper) (e : Envelope) :
    (c.takeEnvelope e).outbound.Proper := by
  have performed (calls : List (Call ClientHandler)) :
      (receiver.performAll calls c).outbound.Proper := by
    refine receiver.performAll_induct (motive := fun c' : Client => c'.outbound.Proper) h ?_
    intro call _ c' proper
    match call with
    | .guaranteed .peer _ | .guaranteed (.application _) _ | .unreliable (.application _) _ =>
      exact proper
    | .acknowledge ack => exact proper.enqueue ack
    | .unreliable .peer command => exact proper.heed command
  unfold takeEnvelope
  split
  · simp only [Receiver.receive_eq]
    split
    · exact performed _
    · exact h
  · exact h

/-- Whatever arrives. -/
theorem proper_takeDatagram (h : c.outbound.Proper) (source : Address) (bytes : List UInt8) :
    (c.takeDatagram source bytes).outbound.Proper := by
  have noticed : { c with lastReceived := c.now }.outbound.Proper := h
  unfold takeDatagram
  split
  · exact h
  · split
    case h_1 => exact h
    case h_2 p _ =>
      split
      · obtain ⟨header, body⟩ := p
        cases body with
        | control f => exact proper_takeControl noticed f
        | envelope e => exact proper_takeEnvelope noticed e
        | disconnect => exact proper_close noticed _
        | register => exact h
      · exact h

/-- Whatever happens, envelopes apart. -/
theorem Act.proper (act : Act c c') (h : c.outbound.Proper) : c'.outbound.Proper := by
  cases act with
  | enqueue command => exact h.enqueue command
  | disconnect =>
    unfold Client.disconnect
    split
    · exact h
    · exact proper_close (c := (c.send .disconnect).2) h _
  | datagram source bytes => exact proper_takeDatagram h source bytes
  | addHandler | removeHandler | introduce | takeDeliveries | elapse | relink => exact h

/-! ## Updates -/

theorem proper_asked (h : c.outbound.Proper) :
    PeerSlot.Proper (if c.isIdle then (PeerSlot.keepAlive c.outbound).2 else c.outbound) := by
  split
  · exact h.keepAlive
  · exact h

/-- The envelope that an update builds. -/
theorem proper_builds (h : c.outbound.Proper) : ∀ e ∈ c.builds, e.Proper := by
  unfold builds
  split
  · exact (proper_asked h).flush.1
  · exact nofun

theorem proper_sendEnvelope (h : c.outbound.Proper) (e : Envelope) :
    (c.sendEnvelope e).2.outbound.Proper := by
  have sent : (c.send (.envelope e)).2.outbound.Proper := h
  unfold sendEnvelope
  split
  case h_1 n c' result =>
    rw [result] at sent
    exact sent
  case h_2 size c' result =>
    rw [result] at sent
    exact proper_close (c := (c'.send .disconnect).2) sent _
  case h_3 error c' _ result =>
    rw [result] at sent
    exact sent

theorem proper_flush (h : c.outbound.Proper) : c.flush.2.outbound.Proper := by
  have flushed := (proper_asked h).flush.2
  unfold flush
  split
  · dsimp only
    split
    case h_1 e _ => exact proper_sendEnvelope (c := { c with outbound := _ }) flushed e
    case h_2 => exact flushed
  · exact h

theorem proper_update (h : c.outbound.Proper) : c.update.2.outbound.Proper := by
  have retried : c.retry.2.outbound.Proper := by
    unfold retry
    split <;> exact h
  unfold update
  split
  · exact h
  · split
    · exact proper_close h _
    · split
      case h_1 error c' result =>
        rw [result] at retried
        exact retried
      case h_2 n c' result =>
        rw [result] at retried
        exact proper_flush retried

end

end Client
end DatagramSession
