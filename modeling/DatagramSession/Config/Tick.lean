import DatagramSession.Config
/-!
# The length of a tick

A tick takes one second over the tick rate.  The quotient is first rounded to the nearest double and
that to the nearest nanosecond; both times a tie goes to the even neighbour.
-/
namespace DatagramSession

/-- The natural number nearest to a quotient; of two equally near ones the even one. -/
def roundDiv (n d : Nat) : Nat :=
  let q := n / d
  let twice := 2 * (n % d)
  if twice < d then q else if d < twice then q + 1 else q + q % 2

/-- The exponent at which the significand of `1 / n` has 53 bits. -/
def reciprocalScale (n : Nat) : Nat :=
  52 + n.log2 + (if 1 <<< n.log2 = n then 0 else 1)

/-- One second over `rate`, a rate of zero counting as one. -/
def tickLength (rate : UInt32) : Duration :=
  let n := max rate.toNat 1
  let scale := reciprocalScale n
  roundDiv (roundDiv (1 <<< scale) n * seconds 1) (1 <<< scale)

def ServerConfig.tickDuration (c : ServerConfig) : Duration :=
  tickLength c.tickRate

def ClientConfig.tickDuration (c : ClientConfig) : Duration :=
  tickLength c.tickRate

end DatagramSession
