/-!
# Words and places on the wire

Numbers are little-endian.  `littleEndian` writes a number of a given width and `wordAt` reads one
at a position; a read past the end gives zero bytes, so the reader checks bounds before it looks.  A
relative pointer is a signed 32-bit distance from a place of its own; `pointerTo` writes one and
`follow?` resolves one.
-/
namespace DatagramSession.Wire

/-- The size of a command record or a batch record. -/
def recordSize : Nat := 12

/-- The size of the root of a datagram. -/
def rootSize : Nat := 48

/-- The longest text that is kept in the root itself. -/
def inlineSize : Nat := 8

/-- The `width` low bytes of a number, lowest first. -/
def littleEndian : Nat → Nat → List UInt8
  | 0, _ => []
  | width + 1, n => UInt8.ofNat n :: littleEndian width (n / 256)

/-- The number whose `width` bytes, lowest first, start at `pos`. -/
def wordAt (bytes : Array UInt8) (pos : Nat) : Nat → Nat
  | 0 => 0
  | width + 1 => (bytes.getD pos 0).toNat + 256 * wordAt bytes (pos + 1) width

/-- The next multiple of `step` at or after `pos`. -/
def alignUp (step pos : Nat) : Nat :=
  (pos + (step - 1)) / step * step

/-- Zero bytes from `pos` to the next multiple of `step`. -/
def padding (step pos : Nat) : List UInt8 :=
  List.replicate (alignUp step pos - pos) 0

/-- A relative pointer that is reckoned from `source`. -/
def pointerTo (source target : Nat) : List UInt8 :=
  littleEndian 4 (target + UInt32.size - source)

/-- Where the relative pointer at `pos` leads when it is reckoned from `source`; nowhere if that is
before the buffer. -/
def follow? (bytes : Array UInt8) (pos source : Nat) : Option Nat :=
  let raw := wordAt bytes pos 4
  if raw < UInt32.size / 2 then some (source + raw)
  else if UInt32.size - raw ≤ source then some (source - (UInt32.size - raw)) else none

/-- The bytes from `pos` to `pos + size`. -/
def slice (bytes : Array UInt8) (pos size : Nat) : List UInt8 :=
  (bytes.extract pos (pos + size)).toList

@[simp] theorem length_littleEndian (width n : Nat) : (littleEndian width n).length = width := by
  induction width generalizing n with
  | zero => rfl
  | succ width ih => simp [littleEndian, ih]

theorem le_alignUp {step : Nat} (pos : Nat) (h : 0 < step) : pos ≤ alignUp step pos := by
  have := Nat.div_add_mod (pos + (step - 1)) step
  have := Nat.mod_lt (pos + (step - 1)) h
  rw [alignUp, Nat.mul_comm]
  omega

theorem alignUp_mono (step : Nat) {pos pos' : Nat} (h : pos ≤ pos') :
    alignUp step pos ≤ alignUp step pos' :=
  Nat.mul_le_mul_right _ (Nat.div_le_div_right (Nat.add_le_add_right h _))

theorem alignUp_least {step pos pos' : Nat} (behind : pos ≤ pos') (aligned : pos' % step = 0) :
    alignUp step pos ≤ pos' := by
  apply Nat.le_trans (alignUp_mono step behind)
  obtain ⟨k, rfl⟩ := Nat.dvd_of_mod_eq_zero aligned
  cases step with
  | zero => simp [alignUp]
  | succ step =>
    have same : ((step + 1) * k + step) / (step + 1) = k := by
      rw [Nat.mul_add_div (Nat.succ_pos step), Nat.div_eq_of_lt (Nat.lt_succ_self step),
        Nat.add_zero]
    apply Nat.le_of_eq
    rw [alignUp, Nat.add_sub_cancel, same, Nat.mul_comm]

@[simp] theorem alignUp_mod (step pos : Nat) : alignUp step pos % step = 0 :=
  Nat.mul_mod_left _ _

end DatagramSession.Wire
