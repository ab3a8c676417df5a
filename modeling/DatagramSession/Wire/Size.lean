import DatagramSession.Wire.Encoding
import Mathlib.Data.List.Forall2
/-!
# How long a datagram is

Each writer writes exactly up to the position that is reckoned for its end.  Main statements:
`length_layOut`, the datagram of a packet has `wireSize` bytes, and `envelopeSize_mono`, an envelope
does not get shorter when it carries more.
-/
namespace DatagramSession

/-- The commands of a batch are among those of another one, in the same order. -/
def Batch.Within (b b' : Batch) : Prop :=
  b.commands.Sublist b'.commands

instance : Std.Refl Batch.Within :=
  ⟨fun b => List.Sublist.refl b.commands⟩

namespace Wire

@[simp] theorem length_pointerTo (source target : Nat) : (pointerTo source target).length = 4 := by
  simp [pointerTo]

@[simp] theorem length_span (source target length : Nat) :
    (span source target length).length = 8 := by
  simp [span]

theorem add_length_padding {step : Nat} (pos : Nat) (h : 0 < step) :
    pos + (padding step pos).length = alignUp step pos := by
  have := le_alignUp pos h
  simp only [padding, List.length_replicate]
  omega

@[simp] theorem length_commandRecord (pos data : Nat) (c : Command) :
    (commandRecord pos data c).length = recordSize := by
  cases c <;> simp [commandRecord, recordSize]

@[simp] theorem length_commandRecords (pos data : Nat) (cs : List Command) :
    (commandRecords pos data cs).length = recordSize * cs.length := by
  induction cs generalizing pos data with
  | nil => rfl
  | cons c cs ih =>
    simp only [commandRecords, List.length_append, length_commandRecord, ih, List.length_cons]
    rw [Nat.mul_add, Nat.mul_one, Nat.add_comm]

@[simp] theorem length_payloads (cs : List Command) : (payloads cs).length = payloadsSize cs := by
  induction cs with
  | nil => rfl
  | cons c cs ih => simpa [payloads, payloadsSize] using ih

theorem add_length_commandBlock (pos : Nat) (cs : List Command) :
    pos + (commandBlock pos cs).length = commandsEnd pos cs := by
  have := add_length_padding (pos + payloadsSize cs) (by decide : 0 < 4)
  simp only [commandBlock, List.length_append, length_payloads, length_commandRecords, commandsEnd,
    commandsAt]
  omega

theorem le_commandsEnd (pos : Nat) (cs : List Command) : pos ≤ commandsEnd pos cs := by
  rw [← add_length_commandBlock]
  exact Nat.le_add_right _ _

@[simp] theorem length_batchRecord (pos data : Nat) (b : Batch) :
    (batchRecord pos data b).length = recordSize := by
  simp [batchRecord, recordSize]

@[simp] theorem length_batchRecords (pos data : Nat) (bs : List Batch) :
    (batchRecords pos data bs).length = recordSize * bs.length := by
  induction bs generalizing pos data with
  | nil => rfl
  | cons b bs ih =>
    simp only [batchRecords, List.length_append, length_batchRecord, ih, List.length_cons]
    rw [Nat.mul_add, Nat.mul_one, Nat.add_comm]

theorem add_length_batchBlocks (pos : Nat) (bs : List Batch) :
    pos + (batchBlocks pos bs).length = batchBlocksEnd pos bs := by
  induction bs generalizing pos with
  | nil => rfl
  | cons b bs ih =>
    rw [batchBlocks, batchBlocksEnd, List.length_append, ← Nat.add_assoc,
      add_length_commandBlock, ih]

theorem le_batchBlocksEnd (pos : Nat) (bs : List Batch) : pos ≤ batchBlocksEnd pos bs := by
  rw [← add_length_batchBlocks]
  exact Nat.le_add_right _ _

theorem add_length_batchBlock (pos : Nat) (bs : List Batch) :
    pos + (batchBlock pos bs).length = batchesEnd pos bs := by
  have blocks := add_length_batchBlocks pos bs
  have pad := add_length_padding (batchBlocksEnd pos bs) (by decide : 0 < 4)
  simp only [batchBlock, List.length_append, length_batchRecords, batchesEnd, batchesAt]
  omega

theorem add_length_textBlock (pos : Nat) (s : String) :
    pos + (textBlock s).length = textEnd pos s := by
  unfold textBlock textEnd
  split
  · rfl
  · rw [Utf8.length_encode]

@[simp] theorem length_textField (pos data : Nat) (s : String) :
    (textField pos data s).length = inlineSize := by
  unfold textField
  split
  · rename_i short
    simp only [List.length_append, Utf8.length_encode, List.length_replicate]
    omega
  · simp [inlineSize]

@[simp] theorem length_messageFields (pos : Nat) (m : ControlMessage) :
    (messageFields pos m).2.length = inlineSize := by
  cases m <;> simp [messageFields, inlineSize]

theorem length_bodyBlock (body : Body) : (bodyBlock body).length = bodyEnd body := by
  match body with
  | .register hello => simpa [bodyBlock, bodyEnd] using add_length_textBlock 0 hello.game
  | .envelope e =>
    have batches := add_length_batchBlock 0 e.guaranteed
    have commands := add_length_commandBlock (batchesEnd 0 e.guaranteed) e.unreliable
    simp only [bodyBlock, bodyEnd, List.length_append]
    omega
  | .control ⟨_, _, .kick reason⟩ => simpa [bodyBlock, bodyEnd] using add_length_textBlock 0 reason
  | .control ⟨_, _, .registered _⟩ => rfl
  | .control ⟨_, _, .servicesReady⟩ => rfl
  | .control ⟨_, _, .confirm⟩ => rfl
  | .disconnect => rfl

@[simp] theorem length_bodyFields (root : Nat) (body : Body) :
    (bodyFields root body).length = 32 := by
  cases body <;> simp [bodyFields, inlineSize]

@[simp] theorem length_rootRecord (root : Nat) (p : Packet) :
    (rootRecord root p).length = rootSize := by
  simp [rootRecord, rootSize]

theorem length_layOut (p : Packet) : (layOut p).length = wireSize p := by
  have pad := add_length_padding (bodyEnd p.body) (by decide : 0 < 8)
  simp only [layOut, wireSize, rootAt, List.length_append, length_bodyBlock, length_rootRecord]
  omega

/-! ## Envelopes that carry more -/

theorem payloadsSize_mono {cs cs' : List Command} (more : cs.Sublist cs') :
    payloadsSize cs ≤ payloadsSize cs' := by
  induction more with
  | slnil => exact Nat.le_refl _
  | cons _ _ ih => exact Nat.le_trans ih (Nat.le_add_left _ _)
  | cons_cons _ _ ih => exact Nat.add_le_add_left ih _

theorem commandsEnd_mono {pos pos' : Nat} (start : pos ≤ pos') {cs cs' : List Command}
    (more : cs.Sublist cs') :
    commandsEnd pos cs ≤ commandsEnd pos' cs' := by
  have records : commandsAt pos cs ≤ commandsAt pos' cs' :=
    alignUp_mono 4 (Nat.add_le_add start (payloadsSize_mono more))
  exact Nat.add_le_add records (Nat.mul_le_mul_left _ more.length_le)

/-- Padding never makes up for what comes before it, so more room in front is more room in all. -/
theorem batchBlocksEnd_mono {pos pos' : Nat} (start : pos ≤ pos') {bs bs' : List Batch}
    (more : List.SublistForall₂ Batch.Within bs bs') :
    batchBlocksEnd pos bs ≤ batchBlocksEnd pos' bs' := by
  induction more generalizing pos pos' with
  | nil => exact Nat.le_trans start (le_batchBlocksEnd _ _)
  | cons within _ ih => exact ih (commandsEnd_mono start within)
  | cons_right _ ih => exact ih (Nat.le_trans start (le_commandsEnd _ _))

theorem batchesEnd_mono {pos : Nat} {bs bs' : List Batch}
    (more : List.SublistForall₂ Batch.Within bs bs') :
    batchesEnd pos bs ≤ batchesEnd pos bs' := by
  have records : batchesAt pos bs ≤ batchesAt pos bs' :=
    alignUp_mono 4 (batchBlocksEnd_mono (Nat.le_refl pos) more)
  have count : bs.length ≤ bs'.length := by
    obtain ⟨kept, alike, left⟩ := List.sublistForall₂_iff.1 more
    exact alike.length_eq ▸ left.length_le
  exact Nat.add_le_add records (Nat.mul_le_mul_left _ count)

/-- The length of the datagram of an envelope, whatever its header. -/
def envelopeSize (e : Envelope) : Nat :=
  wireSize (.numbered 0 (.envelope e))

/-- The order number takes the same room, whatever it is. -/
theorem envelopeSize_mono {e e' : Envelope}
    (batches : List.SublistForall₂ Batch.Within e.guaranteed e'.guaranteed)
    (commands : e.unreliable.Sublist e'.unreliable) : envelopeSize e ≤ envelopeSize e' :=
  Nat.add_le_add_right (alignUp_mono 8 (commandsEnd_mono (batchesEnd_mono batches) commands))
    rootSize

/-! ## Envelopes and their payloads -/

theorem payloadsSize_le_commandsEnd (pos : Nat) (cs : List Command) :
    payloadsSize cs ≤ commandsEnd pos cs := by
  have := le_alignUp (pos + payloadsSize cs) (by decide : 0 < 4)
  simp only [commandsEnd, commandsAt]
  omega

theorem payloadsSize_le_batchBlocksEnd {bs : List Batch} {b : Batch} (carried : b ∈ bs)
    (pos : Nat) :
    payloadsSize b.commands ≤ batchBlocksEnd pos bs := by
  induction bs generalizing pos with
  | nil => cases carried
  | cons first rest ih =>
    rcases List.mem_cons.1 carried with rfl | later
    · exact Nat.le_trans (payloadsSize_le_commandsEnd pos b.commands) (le_batchBlocksEnd _ rest)
    · exact ih later _

/-- What the payloads of the unreliable commands, and those of every batch, take is only part of an
envelope. -/
theorem payloadsSize_le_envelopeSize (e : Envelope) : payloadsSize e.unreliable ≤ envelopeSize e ∧
    ∀ b ∈ e.guaranteed, payloadsSize b.commands ≤ envelopeSize e := by
  have root := le_alignUp (commandsEnd (batchesEnd 0 e.guaranteed) e.unreliable) (by decide : 0 < 8)
  have size : envelopeSize e = alignUp 8 (commandsEnd (batchesEnd 0 e.guaranteed) e.unreliable) +
      rootSize := rfl
  refine ⟨?_, fun b carried => ?_⟩
  · have := payloadsSize_le_commandsEnd (batchesEnd 0 e.guaranteed) e.unreliable
    omega
  · have blocks := payloadsSize_le_batchBlocksEnd carried 0
    have records := le_alignUp (batchBlocksEnd 0 e.guaranteed) (by decide : 0 < 4)
    have behind := le_commandsEnd (batchesEnd 0 e.guaranteed) e.unreliable
    have placed : batchesEnd 0 e.guaranteed =
        alignUp 4 (batchBlocksEnd 0 e.guaranteed) + recordSize * e.guaranteed.length := rfl
    omega

/-- Every control frame but a kick fits into a datagram. -/
theorem encode_control (sequence : UInt32) {f : ControlFrame}
    (short : ∀ reason, f.message ≠ .kick reason) :
    ∃ bytes, encode (.numbered sequence (.control f)) = .ok bytes := by
  obtain ⟨order, flags, message⟩ := f
  have size : wireSize (.numbered sequence (.control ⟨order, flags, message⟩)) = rootSize := by
    cases message with
    | kick reason => exact absurd rfl (short reason)
    | registered | servicesReady | confirm =>
      simp [wireSize, rootAt, Packet.numbered, bodyEnd, alignUp]
  have fits : wireSize (.numbered sequence (.control ⟨order, flags, message⟩)) ≤ maxPacketSize := by
    rw [size]
    decide
  exact ⟨layOut _, if_pos fits⟩

end Wire
end DatagramSession
