/-!
# Circular order numbers

Envelopes, control frames, batches and registration datagrams are numbered by 32-bit counters that
wrap.  `OrderNumber.after` compares two such numbers: the later one is at most half the circle
ahead, and of two numbers exactly opposite each other the smaller counts as later.
`OrderNumber.isNewer` compares a number with a watermark that may still be empty.
-/
namespace DatagramSession

/-- A position on a 32-bit counter that wraps. -/
abbrev OrderNumber := UInt32

namespace OrderNumber

/-- The largest distance at which the numerically larger number is the later one. -/
def halfCircle : UInt32 := 2147483647

/-- `a.after b`: on the circle, `a` comes strictly after `b`. -/
def after (a b : OrderNumber) : Bool :=
  (decide (b < a) && decide (a - b ≤ halfCircle)) || (decide (a < b) && decide (halfCircle < b - a))

/-- Everything is newer than an empty watermark; otherwise newer means strictly after it. -/
def isNewer (candidate : OrderNumber) : Option OrderNumber → Bool
  | none => true
  | some watermark => candidate.after watermark

@[simp] theorem isNewer_none (a : OrderNumber) : a.isNewer none = true := rfl

@[simp] theorem isNewer_some (a w : OrderNumber) : a.isNewer (some w) = a.after w := rfl

theorem after_irrefl (a : OrderNumber) : a.after a = false := by
  simp [after]

end OrderNumber
end DatagramSession
