import DatagramSession.Proofs.Position
import Mathlib.Algebra.Group.Int.Defs
import Mathlib.Algebra.Group.Nat.Defs
import Mathlib.Order.Nat
import Mathlib.Order.RelClasses
/-!
# The circular order

Two different order numbers are always in one order or the other, whichever way round the circle is
shorter (`decided`), and how far one of them is ahead decides which (`after_iff_lead`).  No
difference is reckoned that falls below zero (`after?_eq`).  Round the whole circle the comparison
is no order, for it has cycles; it is one of any `halfRange` consecutive positions, wherever the
circle starts anew among them (`isStrictTotalOrder_window`).
-/
namespace DatagramSession.OrderNumber

/-- The difference of two numbers, unless it falls below zero. -/
def minus? (a b : OrderNumber) : Option UInt32 :=
  if b ≤ a then some (a - b) else none

/-- The comparison over differences that may fail.  The second difference is looked at only if the
first comparison does not decide, and each of them only if the numbers are in that order. -/
def after? (a b : OrderNumber) : Option Bool := do
  let ahead ← if b < a then (a.minus? b).map fun d => decide (d ≤ halfCircle) else some false
  if ahead then some true
  else if a < b then (b.minus? a).map fun d => decide (halfCircle < d) else some false

/-- How far one number is ahead of another one on the circle. -/
def lead (a b : OrderNumber) : Int :=
  ((a.toNat : Int) - b.toNat) % 2 ^ 32

/-- Some consecutive positions. -/
abbrev Window (base size : Nat) : Type :=
  { p : Nat // base ≤ p ∧ p < base + size }

/-- No difference falls below zero. -/
theorem after?_eq (a b : OrderNumber) : a.after? b = some (a.after b) := by
  have ahead (lt : b < a) : a.minus? b = some (a - b) := if_pos (UInt32.le_of_lt lt)
  have behind (lt : a < b) : b.minus? a = some (b - a) := if_pos (UInt32.le_of_lt lt)
  unfold after? after
  by_cases above : b < a
  · have below : ¬ a < b := UInt32.lt_asymm above
    by_cases near : a - b ≤ halfCircle <;> simp [above, below, near, ahead above]
  · by_cases below : a < b
    · simp [above, below, behind below]
    · simp [above, below]

theorem after_iff_toNat (a b : OrderNumber) : a.after b = true ↔
    b.toNat < a.toNat ∧ a.toNat - b.toNat < 2 ^ 31 ∨ a.toNat < b.toNat ∧
    2 ^ 31 ≤ b.toNat - a.toNat := by
  have half : halfCircle.toNat = 2147483647 := rfl
  have small := a.toNat_lt
  have small' := b.toNat_lt
  simp only [after, UInt32.lt_iff_toNat_lt, UInt32.le_iff_toNat_le, UInt32.toNat_sub, half,
    Bool.or_eq_true, Bool.and_eq_true, decide_eq_true_eq]
  omega

/-- Up to half the circle ahead is after; right opposite, the smaller number is. -/
theorem after_iff_lead (a b : OrderNumber) : a.after b = true ↔
    1 ≤ a.lead b ∧ a.lead b ≤ 2 ^ 31 - 1 ∨ a.lead b = 2 ^ 31 ∧ a < b := by
  have small := a.toNat_lt
  have small' := b.toNat_lt
  rw [after_iff_toNat, lead, UInt32.lt_iff_toNat_lt]
  omega

/-- Of two different numbers, one comes after the other. -/
theorem after_eq_not_after {a b : OrderNumber} (different : a ≠ b) : a.after b = !b.after a := by
  have apart : a.toNat ≠ b.toNat := fun same => different (UInt32.toNat_inj.1 same)
  rw [Bool.eq_iff_iff, Bool.not_eq_true', ← Bool.not_eq_true, after_iff_toNat, after_iff_toNat]
  omega

theorem decided (a b : OrderNumber) : [decide (a = b), a.after b, b.after a].count true = 1 := by
  by_cases same : a = b
  · subst same
    simp [after_irrefl]
  · rw [after_eq_not_after same]
    cases b.after a <;> simp [same]

/-- On a window the circular order is the order of the positions. -/
theorem after_window {base size : Nat} (few : size ≤ halfRange) (p q : Window base size) :
    (numberAt q.1).after (numberAt p.1) = true ↔ p < q := by
  obtain ⟨p, low, high⟩ := p
  obtain ⟨q, low', high'⟩ := q
  have near : Near q p := ⟨by omega, by omega⟩
  rw [after_numberAt near, decide_eq_true_eq]
  rfl

theorem isStrictTotalOrder_window (base : Nat) {size : Nat} (few : size ≤ halfRange) :
    IsStrictTotalOrder (Window base size) fun p q =>
      (numberAt q.1).after (numberAt p.1) = true := by
  have same : (fun p q : Window base size => (numberAt q.1).after (numberAt p.1) = true) =
      (· < ·) :=
    funext₂ fun p q => propext (after_window few p q)
  rw [same]
  infer_instance

/-- Any two order numbers are the same, or exactly one of them comes after the other: the one that
is up to `2 ^ 31 - 1` ahead, or the smaller one of two that are right opposite each other.  No
difference falls below zero on the way.  So positions that are less than half the circle apart are
compared as they are, and any window of up to half the circle is in strict total order. -/
theorem ordered_on_windows :
    (∀ a b : OrderNumber, [decide (a = b), a.after b, b.after a].count true = 1 ∧
      a.after? b = some (a.after b) ∧
      (a.after b = true ↔ 1 ≤ a.lead b ∧ a.lead b ≤ 2 ^ 31 - 1 ∨ a.lead b = 2 ^ 31 ∧ a < b)) ∧
    (∀ i j : Nat, ((i : Int) - j).natAbs < 2 ^ 31 →
      ((numberAt i).after (numberAt j) = true ↔ j < i)) ∧
    ∀ base size : Nat, size ≤ 2 ^ 31 →
      IsStrictTotalOrder (Window base size) fun p q =>
        (numberAt q.1).after (numberAt p.1) = true := by
  refine ⟨fun a b => ⟨a.decided b, a.after?_eq b, a.after_iff_lead b⟩, fun i j close => ?_,
    fun base size few => isStrictTotalOrder_window base few⟩
  have near : Near i j := by
    simp only [Near, halfRange]
    omega
  rw [after_numberAt near, decide_eq_true_eq]

/-- The circle starts anew between the two positions, and in the middle of the window. -/
theorem ordered_on_windows_wrapped :
    let i : Nat := 2 ^ 32 + 2 ^ 30
    let j : Nat := 2 ^ 32 - 2 ^ 30 + 1
    ((i : Int) - j).natAbs < 2 ^ 31 ∧ (numberAt i < numberAt j) ∧
      (numberAt i).after (numberAt j) = true ∧
      IsStrictTotalOrder (Window (2 ^ 32 - 2 ^ 30) (2 ^ 31)) fun p q =>
        (numberAt q.1).after (numberAt p.1) = true := by
  intro i j
  obtain ⟨_, positions, windows⟩ := ordered_on_windows
  have close : ((i : Int) - j).natAbs < 2 ^ 31 := by decide
  exact ⟨close, by decide, (positions i j close).2 (by decide), windows _ _ (Nat.le_refl _)⟩

end DatagramSession.OrderNumber
