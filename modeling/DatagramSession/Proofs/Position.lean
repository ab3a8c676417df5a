import DatagramSession.Sequence
/-!
# Positions

An order number is the residue of a position on a counter that never wraps.  Comparing two order
numbers on the circle is comparing their positions, as long as these are less than half the circle
apart (`after_numberAt`).
-/
namespace DatagramSession

/-- The order number of a position. -/
def numberAt (p : Nat) : OrderNumber := UInt32.ofNat p

/-- How many consecutive positions order numbers can tell apart. -/
def halfRange : Nat := 2147483648

/-- Two positions less than half the circle apart. -/
def Near (p q : Nat) : Prop := p < q + halfRange ∧ q < p + halfRange

/-- Some `halfRange` consecutive positions hold all of these. -/
def Windowed (positions : List Nat) : Prop :=
  ∃ base, ∀ p ∈ positions, base ≤ p ∧ p < base + halfRange

/-- Whether an empty or earlier watermark has reached a position. -/
def Reached (watermark : Option Nat) (p : Nat) : Prop := ∃ w ∈ watermark, p ≤ w

instance (watermark : Option Nat) (p : Nat) : Decidable (Reached watermark p) :=
  match watermark with
  | none => isFalse fun ⟨_, none_mem, _⟩ => nomatch none_mem
  | some w =>
    decidable_of_iff (p ≤ w)
      ⟨fun le => ⟨w, rfl, le⟩, fun ⟨_, same, le⟩ => Option.some.inj same ▸ le⟩

theorem near_of_windowed {positions : List Nat} (h : Windowed positions) {p q : Nat}
    (hp : p ∈ positions) (hq : q ∈ positions) : Near p q := by
  obtain ⟨base, within⟩ := h
  have := within p hp
  have := within q hq
  constructor <;> omega

theorem windowed_of_lt {positions : List Nat} (h : ∀ p ∈ positions, p < halfRange) :
    Windowed positions :=
  ⟨0, fun p hp => ⟨Nat.zero_le p, by have := h p hp; omega⟩⟩

theorem numberAt_succ (p : Nat) : numberAt (p + 1) = numberAt p + 1 := by
  simp [numberAt, UInt32.ofNat_add]

/-- The circular order of near positions is their order. -/
theorem after_numberAt {p q : Nat} (h : Near p q) :
    (numberAt p).after (numberAt q) = decide (q < p) := by
  obtain ⟨below, above⟩ := h
  have half : OrderNumber.halfCircle.toNat = 2147483647 := rfl
  simp only [halfRange] at below above
  simp only [OrderNumber.after, numberAt, UInt32.lt_iff_toNat_lt, UInt32.le_iff_toNat_le,
    UInt32.toNat_sub, UInt32.toNat_ofNat', half, ← Bool.decide_and, ← Bool.decide_or,
    decide_eq_decide]
  omega

theorem isNewer_numberAt {p : Nat} {watermark : Option Nat} (h : ∀ w ∈ watermark, Near p w) :
    (numberAt p).isNewer (watermark.map numberAt) = decide (¬ Reached watermark p) := by
  cases watermark with
  | none => simp [Reached]
  | some w => simp [Reached, after_numberAt (h w rfl)]

namespace OrderNumber

/-- On the first half of the circle the circular order is that of the numbers. -/
theorem after_of_lt {a b : OrderNumber} (ha : a.toNat < halfRange) (hb : b.toNat < halfRange) :
    a.after b = decide (b.toNat < a.toNat) := by
  have near : Near a.toNat b.toNat := ⟨by omega, by omega⟩
  simpa [numberAt] using after_numberAt near

/-- There a number is newer than a watermark if it is above it. -/
theorem isNewer_of_lt {a : OrderNumber} {watermark : Option OrderNumber} (ha : a.toNat < halfRange)
    (low : ∀ w ∈ watermark, w.toNat < halfRange) :
    a.isNewer watermark = true ↔ ∀ w ∈ watermark, w.toNat < a.toNat := by
  cases watermark with
  | none => simp
  | some w => simp [after_of_lt ha (low w rfl)]

theorem toNat_succ {a : OrderNumber} (h : a.toNat < halfRange) : (a + 1).toNat = a.toNat + 1 := by
  simp only [halfRange] at h
  rw [UInt32.toNat_add, UInt32.toNat_one]
  omega

end OrderNumber

end DatagramSession
