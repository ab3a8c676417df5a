import DatagramSession.Wire.Decoding
import DatagramSession.Wire.Size
import Mathlib.Algebra.Group.Nat.Defs
/-!
# What lies where in a datagram

`Holds bytes pos part` says that `part` lies at `pos`.  What was written at a place is found there
by whoever looks: words (`Holds.wordAt_eq`), payloads and texts (`Holds.slice_eq`), and the targets
of relative pointers, which lead backwards within a datagram (`Holds.follow?_eq`, `Holds.span_eq`).
The writers' blocks fall into parts that lie where the writers reckoned (`Holds.commandBlock_parts`,
`Holds.batchBlock_parts`, `Holds.layOut_parts`).
-/
namespace DatagramSession.Wire

/-- These bytes lie at `pos`. -/
def Holds (bytes : Array UInt8) (pos : Nat) (part : List UInt8) : Prop :=
  part <+: bytes.toList.drop pos

variable {bytes : Array UInt8} {pos : Nat} {part : List UInt8}

theorem holds_toArray (part : List UInt8) : Holds part.toArray 0 part :=
  List.prefix_refl part

theorem holds_cons {b : UInt8} :
    Holds bytes pos (b :: part) ↔ bytes[pos]? = some b ∧ Holds bytes (pos + 1) part := by
  rw [← Array.getElem?_toList]
  unfold Holds
  rw [← List.head?_drop, ← List.tail_drop]
  cases bytes.toList.drop pos <;> simp [eq_comm]

theorem holds_append {first second : List UInt8} : Holds bytes pos (first ++ second) ↔
    Holds bytes pos first ∧ Holds bytes (pos + first.length) second := by
  induction first generalizing pos with
  | nil => simp [Holds]
  | cons b rest ih =>
    rw [List.cons_append, holds_cons, ih, holds_cons, List.length_cons, and_assoc,
      Nat.add_assoc pos, Nat.add_comm 1]

theorem Holds.slice_eq (h : Holds bytes pos part) : slice bytes pos part.length = part := by
  rw [slice, Array.toList_extract, List.extract_eq_take_drop, Nat.add_sub_cancel_left]
  exact (List.prefix_iff_eq_take.1 h).symm

/-! ## Words -/

/-- The low bytes of a word are read where the word was written. -/
theorem Holds.wordAt_eq {width n : Nat} (h : Holds bytes pos (littleEndian width n)) (low : Nat)
    (le : low ≤ width) :
    wordAt bytes pos low = n % 256 ^ low := by
  induction low generalizing pos width n with
  | zero => simp [wordAt, Nat.mod_one]
  | succ low ih =>
    cases width with
    | zero => omega
    | succ width =>
      obtain ⟨here, later⟩ := holds_cons.1 h
      have rest := ih later (Nat.le_of_succ_le_succ le)
      have byte : (bytes.getD pos 0).toNat = n % 256 := by simp [Array.getD_eq_getD_getElem?, here]
      rw [wordAt, rest, byte, Nat.pow_succ', Nat.mod_mul]

theorem Holds.word_eq {width n : Nat} (h : Holds bytes pos (littleEndian width n)) (low : Nat)
    (le : low ≤ width) (small : n < 256 ^ low) : wordAt bytes pos low = n := by
  rw [h.wordAt_eq low le, Nat.mod_eq_of_lt small]

theorem Holds.byte_eq {b : UInt8} (h : Holds bytes pos (b :: part)) :
    wordAt bytes pos 1 = b.toNat := by
  have here := (holds_cons.1 h).1
  simp [wordAt, Array.getD_eq_getD_getElem?, here]

/-! ## Pointers -/

/-- No datagram is so long that a pointer could not lead back across it. -/
theorem Holds.follow?_eq {source target : Nat} (h : Holds bytes pos (pointerTo source target))
    (back : target ≤ source) (near : source ≤ maxPacketSize) :
    follow? bytes pos source = some target := by
  have word := h.wordAt_eq 4 (Nat.le_refl 4)
  have size : UInt32.size = 4294967296 := rfl
  have limit : maxPacketSize = 65507 := rfl
  simp only [follow?, word, size]
  -- A pointer to its own place is the number zero, which leads forwards.
  rcases Nat.eq_or_lt_of_le back with rfl | before
  · rw [if_pos (by omega)]
    congr
    omega
  · rw [if_neg (by omega), if_pos (by omega)]
    congr
    omega

theorem Holds.span_eq {target length : Nat} (h : Holds bytes pos (span pos target length))
    (back : target ≤ pos) (near : pos ≤ maxPacketSize) (short : length ≤ maxPacketSize) :
    follow? bytes pos pos = some target ∧ wordAt bytes (pos + 4) 4 = length := by
  obtain ⟨pointer, count⟩ := holds_append.1 h
  rw [length_pointerTo] at count
  have limit : maxPacketSize = 65507 := rfl
  exact ⟨pointer.follow?_eq back near, count.word_eq 4 (Nat.le_refl 4) (by omega)⟩

/-! ## Blocks -/

theorem Holds.commandBlock_parts {cs : List Command} (h : Holds bytes pos (commandBlock pos cs)) :
    Holds bytes pos (payloads cs) ∧ Holds bytes (commandsAt pos cs)
      (commandRecords (commandsAt pos cs) pos cs) := by
  obtain ⟨start, records⟩ := holds_append.1 h
  have place : pos + (payloads cs ++ padding 4 (pos + payloadsSize cs)).length =
      commandsAt pos cs := by
    rw [List.length_append, ← Nat.add_assoc, length_payloads, add_length_padding _ (by decide),
      commandsAt]
  rw [place] at records
  exact ⟨(holds_append.1 start).1, records⟩

theorem Holds.batchBlock_parts {bs : List Batch} (h : Holds bytes pos (batchBlock pos bs)) :
    Holds bytes pos (batchBlocks pos bs) ∧ Holds bytes (batchesAt pos bs)
      (batchRecords (batchesAt pos bs) pos bs) := by
  obtain ⟨start, records⟩ := holds_append.1 h
  have place : pos + (batchBlocks pos bs ++ padding 4 (batchBlocksEnd pos bs)).length =
      batchesAt pos bs := by
    rw [List.length_append, ← Nat.add_assoc, add_length_batchBlocks,
      add_length_padding _ (by decide), batchesAt]
  rw [place] at records
  exact ⟨(holds_append.1 start).1, records⟩

theorem Holds.layOut_parts {p : Packet} (h : Holds bytes 0 (layOut p)) :
    Holds bytes 0 (bodyBlock p.body) ∧ Holds bytes (rootAt p.body)
      (rootRecord (rootAt p.body) p) := by
  obtain ⟨start, record⟩ := holds_append.1 h
  have place : 0 + (bodyBlock p.body ++ padding 8 (bodyEnd p.body)).length = rootAt p.body := by
    rw [List.length_append, ← Nat.add_assoc, Nat.zero_add, length_bodyBlock,
      add_length_padding _ (by decide), rootAt]
  rw [place] at record
  exact ⟨(holds_append.1 start).1, record⟩

end DatagramSession.Wire
