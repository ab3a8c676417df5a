/-!
# Time

Clocks count nanoseconds from their start and move only when they are told to.
-/
namespace DatagramSession

/-- Nanoseconds since the clock started. -/
abbrev Instant := Nat

/-- A length of time in nanoseconds. -/
abbrev Duration := Nat

def milliseconds (n : Nat) : Duration :=
  n * 1000000

def seconds (n : Nat) : Duration :=
  n * 1000000000

end DatagramSession
