import DatagramSession.Proofs.Conservation
import DatagramSession.Proofs.Oversized
import DatagramSession.Proofs.Repacking
/-!
# How much fits into an envelope

Besides the root, the records and the payloads, a datagram holds nothing but padding: at most three
bytes before the records of each list of commands, and four before the root
(`Wire.wireSize_envelope_bounds`).  What is inserted anywhere moves all that follows, and no padding
makes up for that (`Wire.envelopeSize_le_of_inserts`).  So a history that is too large stays too
large until something is confirmed, and one command of the greatest length that is accepted always
leaves room for the acknowledgements of a few hundred envelopes (`Envelope.size_accounted`).
-/
namespace DatagramSession

/-- One command or one batch is inserted somewhere. -/
inductive Envelope.Inserts : Envelope → Envelope → Prop where
  | command (order : OrderNumber) (batches : List Batch) (before after : List Command)
      (c : Command) :
      Inserts ⟨order, batches, before ++ after⟩ ⟨order, batches, before ++ c :: after⟩
  | intoBatch (order : OrderNumber) (earlier later : List Batch) (id : OrderNumber)
      (before after : List Command) (c : Command) (commands : List Command) :
      Inserts ⟨order, earlier ++ ⟨id, before ++ after⟩ :: later, commands⟩
        ⟨order, earlier ++ ⟨id, before ++ c :: after⟩ :: later, commands⟩
  | batch (order : OrderNumber) (earlier later : List Batch) (b : Batch) (commands : List Command) :
      Inserts ⟨order, earlier ++ later, commands⟩ ⟨order, earlier ++ b :: later, commands⟩

namespace Wire

theorem alignUp_le (step pos : Nat) : alignUp step pos ≤ pos + (step - 1) :=
  Nat.div_mul_le_self _ _

/-! ## Lists of commands -/

theorem commandsEnd_bounds (pos : Nat) (cs : List Command) :
    pos + commandsSize cs ≤ commandsEnd pos cs ∧
    commandsEnd pos cs ≤ pos + commandsSize cs + 3 := by
  have low := le_alignUp (pos + payloadsSize cs) (by decide : 0 < 4)
  have high := alignUp_le 4 (pos + payloadsSize cs)
  simp only [commandsEnd, commandsAt, commandsSize]
  omega

theorem commandsEnd_mod (pos : Nat) (cs : List Command) : commandsEnd pos cs % 4 = 0 := by
  have aligned := alignUp_mod 4 (pos + payloadsSize cs)
  simp only [commandsEnd, commandsAt, recordSize]
  omega

theorem payloadsSize_append (cs cs' : List Command) :
    payloadsSize (cs ++ cs') = payloadsSize cs + payloadsSize cs' := by
  rw [← length_payloads, ← length_payloads, ← length_payloads, payloads, List.flatMap_append,
    List.length_append]
  rfl

theorem commandsSize_append (cs cs' : List Command) :
    commandsSize (cs ++ cs') = commandsSize cs + commandsSize cs' := by
  simp only [commandsSize, payloadsSize_append, List.length_append, Nat.mul_add]
  omega

/-! ## Lists of batches -/

/-- The sizes of the batches add up, and each of them is padded once. -/
theorem batchBlocksEnd_bounds (pos : Nat) (bs : List Batch) :
    pos + commandsSize (bs.flatMap Batch.commands) ≤ batchBlocksEnd pos bs ∧
      batchBlocksEnd pos bs ≤ pos + commandsSize (bs.flatMap Batch.commands) + 3 * bs.length := by
  induction bs generalizing pos with
  | nil => exact ⟨Nat.le_refl _, Nat.le_refl _⟩
  | cons b bs ih =>
    obtain ⟨low, high⟩ := commandsEnd_bounds pos b.commands
    obtain ⟨low', high'⟩ := ih (commandsEnd pos b.commands)
    simp only [batchBlocksEnd, List.flatMap_cons, commandsSize_append, List.length_cons]
    omega

theorem batchBlocksEnd_mod {pos : Nat} (aligned : pos % 4 = 0) (bs : List Batch) :
    batchBlocksEnd pos bs % 4 = 0 := by
  induction bs generalizing pos with
  | nil => exact aligned
  | cons b bs ih => exact ih (commandsEnd_mod pos b.commands)

/-- The records of the batches need no padding, for those of the last list of commands end on a
multiple of four. -/
theorem batchesEnd_eq (bs : List Batch) :
    batchesEnd 0 bs = batchBlocksEnd 0 bs + recordSize * bs.length := by
  have aligned : alignUp 4 (batchBlocksEnd 0 bs) = batchBlocksEnd 0 bs :=
    Nat.le_antisymm (alignUp_least (Nat.le_refl _) (batchBlocksEnd_mod rfl bs))
      (le_alignUp _ (by decide))
  rw [batchesEnd, batchesAt, aligned]

/-! ## Envelopes -/

theorem wireSize_envelope (header : Header) (e : Envelope) :
    wireSize ⟨header, .envelope e⟩ =
      alignUp 8 (commandsEnd (batchesEnd 0 e.guaranteed) e.unreliable) + rootSize :=
  rfl

theorem wireSize_envelope_bounds (header : Header) (e : Envelope) :
    let carried := rootSize + recordSize * e.guaranteed.length + commandsSize e.commands
    carried ≤ wireSize ⟨header, .envelope e⟩ ∧
      wireSize ⟨header, .envelope e⟩ ≤ carried + 3 * (e.guaranteed.length + 1) + 4 := by
  intro carried
  obtain ⟨low, high⟩ := batchBlocksEnd_bounds 0 e.guaranteed
  obtain ⟨low', high'⟩ := commandsEnd_bounds (batchesEnd 0 e.guaranteed) e.unreliable
  have aligned := commandsEnd_mod (batchesEnd 0 e.guaranteed) e.unreliable
  have records := batchesEnd_eq e.guaranteed
  have commands := commandsSize_append (e.guaranteed.flatMap Batch.commands) e.unreliable
  simp only [wireSize_envelope, carried, Envelope.commands, alignUp]
  omega

theorem within_of_inserts {e e' : Envelope} (inserts : e.Inserts e') :
    List.SublistForall₂ Batch.Within e.guaranteed e'.guaranteed ∧
    e.unreliable.Sublist e'.unreliable := by
  have room {α : Type} (before after : List α) (x : α) :
      (before ++ after).Sublist (before ++ x :: after) :=
    (List.sublist_cons_self x after).append_left before
  cases inserts with
  | command order batches before after c =>
    exact ⟨(List.Sublist.refl _).sublistForall₂, room before after c⟩
  | batch order earlier later b commands =>
    exact ⟨(room earlier later b).sublistForall₂, List.Sublist.refl _⟩
  | intoBatch order earlier later id before after c commands =>
    refine ⟨?_, List.Sublist.refl _⟩
    induction earlier with
    | nil => exact .cons (room before after c) (List.Sublist.refl later).sublistForall₂
    | cons b earlier ih => exact .cons (List.Sublist.refl b.commands) ih

theorem envelopeSize_le_of_inserts {e e' : Envelope} (inserts : e.Inserts e') :
    envelopeSize e ≤ envelopeSize e' := by
  obtain ⟨batches, commands⟩ := within_of_inserts inserts
  exact envelopeSize_mono batches commands

theorem encode_eq_tooLarge {p : Packet} {size : Nat} :
    encode p = .error (.tooLarge size) ↔ maxPacketSize < wireSize p ∧ wireSize p = size := by
  by_cases fits : wireSize p ≤ maxPacketSize
  · simp [encode, fits, Nat.not_lt_of_le fits]
  · simp [encode, fits, Nat.lt_of_not_le fits]

/-- Commands without a payload are all record. -/
theorem commandsSize_of_bare {cs : List Command} (bare : ∀ c ∈ cs, c.payload = []) :
    commandsSize cs = recordSize * cs.length := by
  have none : payloads cs = [] := List.flatMap_eq_nil_iff.2 bare
  rw [commandsSize, ← length_payloads, none, List.length_nil, Nat.zero_add]

end Wire

/-! ## Outbound states -/

theorem PeerSlot.short_of_enqueue {slot : PeerSlot} {c : Command}
    (accepted : (slot.enqueue c).1 = true) :
    c.payload.length ≤ maxPayloadSize := by
  unfold enqueue at accepted
  split at accepted
  case isTrue short => exact short
  case isFalse => cases accepted

namespace Outbound

open Wire (envelopeSize)

variable {o o' : Outbound} {c : Command}

/-- While a history that is too large is not confirmed, an envelope is due at every flush, and it is
too large. -/
theorem Unanswered.flush_of_large (later : Unanswered o o')
    (large : maxPacketSize < envelopeSize o.backlog) :
    o'.flush.1 = some o'.envelope ∧ envelopeSize o.backlog ≤ envelopeSize o'.envelope := by
  refine ⟨?_, later.backlog_le⟩
  have kept : o'.history ≠ [] := by
    intro none
    have empty : o.history = [] := List.prefix_nil.1 (none ▸ later.history_prefix)
    have bare : envelopeSize { order := o.nextOrder } = envelopeSize { order := 0 } := rfl
    rw [backlog, empty, bare] at large
    exact absurd large (by decide)
  have due : o'.isDue = true := by simp [isDue, kept]
  rw [flush_of_isDue due]

/-- A command that may be sent at all fits into one datagram with four hundred acknowledgements. -/
theorem envelopeSize_le_of_single (history : o.history = []) (single : o.guaranteed = [c])
    (short : c.payload.length ≤ maxPayloadSize) (bare : ∀ a ∈ o.unreliable, a.payload = [])
    (few : o.unreliable.length ≤ 400) : envelopeSize o.envelope ≤ maxPacketSize := by
  have batches : o.envelope.guaranteed = [⟨o.nextOrder, [c]⟩] := by
    simp [envelope, extendedHistory, history, single]
  have commands : o.envelope.commands = [c] ++ o.unreliable := by
    rw [Envelope.commands, batches]
    rfl
  have size := (Wire.wireSize_envelope_bounds { sequence := 0 } o.envelope).2
  rw [commands, Wire.commandsSize_append, Wire.commandsSize_of_bare bare, batches] at size
  simp only [Wire.commandsSize, Wire.payloadsSize, List.foldr_cons, List.foldr_nil,
    List.length_cons, List.length_nil, Wire.rootSize, Wire.recordSize] at size
  simp only [maxPayloadSize] at short
  exact Nat.le_trans size (by simp only [maxPacketSize]; omega)

/-- Where something waits, an envelope was asked for. -/
theorem isDue_after {operations : List Operation} (waits : (after operations).guaranteed ≠ []) :
    (after operations).isDue = true := by
  have recent := recent_after operations
  have asked : (after operations).asked = true := by
    by_contra unasked
    have none := recent.pushes_eq_nil (by simpa using unasked)
    rw [recent.guaranteed, none] at waits
    exact waits rfl
  simp [isDue, asked]

end Outbound

/-- The datagram of an envelope is as long as the root, its records and its payloads, and up to
three bytes for each of its lists of commands and four more.  It does not get shorter when something
is inserted.  So a history that is too large by itself makes every envelope too large until
something is confirmed, and an envelope can be sent that holds, with no history, one command that
was accepted and no more than four hundred acknowledgements. -/
theorem Envelope.size_accounted :
    (∀ (header : Header) (e : Envelope),
      let size := (Wire.layOut ⟨header, .envelope e⟩).length
      let batches := e.guaranteed.length
      let commands := e.commands.length
      let payload := (e.commands.flatMap Command.payload).length
      48 + 12 * batches + 12 * commands + payload ≤ size ∧
        size ≤ 48 + 12 * batches + 12 * commands + payload + 3 * (batches + 1) + 4) ∧
    (∀ (header : Header) (e e' : Envelope), e.Inserts e' →
      (Wire.layOut ⟨header, .envelope e⟩).length ≤ (Wire.layOut ⟨header, .envelope e'⟩).length) ∧
    (∀ (o o' : Outbound) (header : Header) (size : Nat),
      Wire.encode ⟨header, .envelope o.backlog⟩ = .error (.tooLarge size) → o.Unanswered o' →
      ∃ e, o'.flush.1 = some e ∧
        ∀ header, ∃ size', size ≤ size' ∧
          Wire.encode ⟨header, .envelope e⟩ = .error (.tooLarge size')) ∧
    ∀ (operations : List Outbound.Operation) (slot : PeerSlot) (c : Command),
      let o := Outbound.after operations
      o.history = [] → o.guaranteed = [c] → (slot.enqueue c).1 = true →
      (∀ a ∈ o.unreliable, ∃ n, a = .ack n) →
      o.unreliable.length ≤ 400 →
      ∃ e, o.flush.1 = some e ∧ ∀ header, ∃ bytes,
        Wire.encode ⟨header, .envelope e⟩ = .ok bytes := by
  refine ⟨fun header e => ?_, fun header e e' inserts => ?_,
    fun o o' header size refused later => ?_, fun operations slot c => ?_⟩
  · intro size batches commands payload
    have bounds := Wire.wireSize_envelope_bounds header e
    have carried : Wire.commandsSize e.commands = payload + 12 * commands := by
      rw [Wire.commandsSize, ← Wire.length_payloads]
      rfl
    rw [carried, ← Wire.length_layOut] at bounds
    simp only [Wire.rootSize, Wire.recordSize] at bounds
    omega
  · rw [Wire.length_layOut, Wire.length_layOut]
    exact Wire.envelopeSize_le_of_inserts inserts
  · obtain ⟨large, rfl⟩ := Wire.encode_eq_tooLarge.1 refused
    obtain ⟨due, grown⟩ := later.flush_of_large large
    exact ⟨_, due, fun _ =>
      ⟨_, grown, Wire.encode_eq_tooLarge.2 ⟨Nat.lt_of_lt_of_le large grown, rfl⟩⟩⟩
  · intro o history single accepted acks few
    have due : o.isDue = true := Outbound.isDue_after (by rw [single]; exact List.cons_ne_nil c [])
    have bare : ∀ a ∈ o.unreliable, a.payload = [] := by
      intro a mem
      obtain ⟨n, rfl⟩ := acks a mem
      rfl
    have fits := Outbound.envelopeSize_le_of_single history single
      (PeerSlot.short_of_enqueue accepted) bare few
    exact ⟨o.envelope, by rw [Outbound.flush_of_isDue due], fun header => ⟨_, if_pos fits⟩⟩

/-- One byte comes into the first of two batches; two batches of 40000 bytes each are replayed with
an acknowledgement; and a command of the greatest length goes out with four hundred. -/
theorem Envelope.size_accounted_full :
    let stuck : Outbound :=
      { history := [⟨0, [bulk .guaranteed]⟩, ⟨1, [bulk .guaranteed]⟩], nextOrder := 2 }
    let longest : Command := .message .guaranteed 1 (List.replicate 60000 1)
    let operations : List Outbound.Operation := .push longest :: List.replicate 400 (.push (.ack 7))
    (Wire.layOut (.numbered 3 (.envelope ⟨2, [⟨0, []⟩, ⟨1, [.ack 5]⟩], []⟩))).length ≤
      (Wire.layOut (.numbered 3
        (.envelope ⟨2, [⟨0, [.message .guaranteed 1 [9]]⟩, ⟨1, [.ack 5]⟩], []⟩))).length ∧
    (∃ e, (stuck.push (.ack 7)).flush.1 = some e ∧ ∃ size, Wire.encode (.numbered 3 (.envelope e)) =
      .error (.tooLarge size)) ∧
    ∃ e, (Outbound.after operations).flush.1 = some e ∧ ∃ bytes,
      Wire.encode (.numbered 3 (.envelope e)) = .ok bytes := by
  intro stuck longest operations
  obtain ⟨_, inserted, grows, fits⟩ := Envelope.size_accounted
  refine ⟨inserted _ _ _ (.intoBatch 2 [] [⟨1, [.ack 5]⟩] 0 [] [] _ []), ?_, ?_⟩
  · have long : (bulk .guaranteed).payload.length = 40000 := length_payload_bulk _
    have large : maxPacketSize < Wire.envelopeSize stuck.backlog := by
      have carried : Wire.commandsSize stuck.backlog.commands = 80024 := by
        have two (c : Command) (long : c.payload.length = 40000) : Wire.commandsSize [c, c] =
            80024 := by
          simp [Wire.commandsSize, Wire.payloadsSize, Wire.recordSize, long]
        exact two _ long
      have bounds := (Wire.wireSize_envelope_bounds { sequence := 0 } stuck.backlog).1
      rw [carried] at bounds
      exact Nat.lt_of_lt_of_le (by decide) bounds
    have refused := Wire.encode_eq_tooLarge.2 ⟨large, rfl⟩
    obtain ⟨e, due, all⟩ := grows stuck _ { sequence := 0 } _ refused (.push (.ack 7) .rest)
    obtain ⟨size, _, refused'⟩ := all { sequence := 3 }
    exact ⟨e, due, size, refused'⟩
  · have whole : Outbound.sinceFlush operations = operations := by
      refine List.rtakeWhile_eq_self_iff.2 fun operation done => ?_
      rcases List.mem_cons.1 done with rfl | ack
      · rfl
      · rw [List.eq_of_mem_replicate ack]
        rfl
    have waits := Outbound.recent_after operations
    rw [whole] at waits
    have pushed (c : Command) (n : Nat) :
        Outbound.pushes (.push c :: List.replicate n (.push (.ack 7))) =
        c :: List.replicate n (.ack 7) :=
      congrArg (c :: ·) (List.filterMap_replicate_of_some rfl)
    have sorted {c : Command} (own : c.isGuaranteed = true) (n : Nat) :
        (c :: List.replicate n (.ack 7)).filter Command.isGuaranteed = [c] ∧
          (c :: List.replicate n (.ack 7)).filter (!·.isGuaranteed) =
          List.replicate n (.ack 7) := by
      simp [own]
    have single : (Outbound.after operations).guaranteed = [longest] := by
      rw [waits.guaranteed, pushed]
      exact (sorted rfl 400).1
    have acks : (Outbound.after operations).unreliable = List.replicate 400 (.ack 7) := by
      rw [waits.unreliable, pushed]
      exact (sorted rfl 400).2
    have accepted : (PeerSlot.enqueue longest (some {})).1 = true := by
      have short : longest.payload.length ≤ maxPayloadSize := Nat.le_of_eq List.length_replicate
      rw [PeerSlot.enqueue, if_pos short]
      rfl
    obtain ⟨e, due, all⟩ := fits operations (some {}) longest (by decide +kernel) single accepted
      (fun a mem => ⟨7, List.eq_of_mem_replicate (acks ▸ mem)⟩)
      (by rw [acks, List.length_replicate])
    exact ⟨e, due, all { sequence := 3 }⟩

end DatagramSession
