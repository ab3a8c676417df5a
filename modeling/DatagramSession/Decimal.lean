/-!
# Shortest decimals

`shortest` finds, for a positive binary fraction, the decimal with the fewest digits that lies
within its rounding interval, and of those with equally many the nearest; `ofFloat?` writes a double
in this way.
-/
namespace DatagramSession.Decimal

/-- A positive number `significand · 2 ^ (power - 1074)`. -/
structure Binary where
  significand : Nat
  power : Nat
  /-- The lower neighbour is half as far away as the upper one. -/
  lowerIsCloser : Bool

/-- A decimal number `digits · 10 ^ (place - 1100)`. -/
structure Candidate where
  digits : Nat
  place : Nat

/-- A bound or a value in units of `2 ^ (power - 1076)`, brought to the common unit
`2 ^ (-1076) · 10 ^ (-1100)`. -/
def Binary.scaled (b : Binary) (quarters : Nat) : Nat :=
  quarters <<< b.power * Nat.pow 10 1100

/-- A decimal in the common unit. -/
def Candidate.scaled (d : Candidate) : Nat :=
  (d.digits * Nat.pow 10 d.place) <<< 1076

def Binary.value (b : Binary) : Nat :=
  b.scaled (4 * b.significand)

/-- The decimal reads back as the number. -/
def Binary.admits (b : Binary) (d : Candidate) : Bool :=
  let low := b.scaled (4 * b.significand - (if b.lowerIsCloser then 1 else 2))
  let high := b.scaled (4 * b.significand + 2)
  if b.significand % 2 = 0 then low ≤ d.scaled && d.scaled ≤ high
  else low < d.scaled && d.scaled < high

/-- The better of the two decimals next to a number at one place, if either reads back. -/
def Binary.atPlace? (b : Binary) (place : Nat) : Option Candidate :=
  let unit := Nat.pow 10 place <<< 1076
  let below : Candidate := ⟨b.value / unit, place⟩
  let above : Candidate := ⟨b.value / unit + 1, place⟩
  let down := b.value - below.scaled
  let up := above.scaled - b.value
  let preferBelow := down < up || (down = up && below.digits % 2 = 0)
  match below.digits ≠ 0 && b.admits below, b.admits above with
  | true, true => some (if preferBelow then below else above)
  | true, false => some below
  | false, true => some above
  | false, false => none

/-- Tries the places from high to low. -/
def Binary.shortestBelow (b : Binary) : Nat → Option Candidate
  | 0 => none
  | place + 1 => (b.atPlace? place).orElse fun _ => b.shortestBelow place

def Binary.shortest (b : Binary) : Candidate :=
  (b.shortestBelow 1420).getD ⟨0, 0⟩

/-- Digits and a power of ten in plain or scientific form: plain from four zeros after the point to
sixteen places before it, always with a point. -/
def layOut (digits : Nat) (power : Int) : String :=
  let ds := toString digits
  let point := (ds.length : Int) + power
  let zeros (n : Int) := String.ofList (List.replicate n.toNat '0')
  if 0 ≤ power && point ≤ 16 then ds ++ zeros power ++ ".0"
  else if 0 < point && point ≤ 16 then
    (ds.take point.toNat).toString ++ "." ++ (ds.drop point.toNat).toString
  else if -5 < point && point ≤ 0 then "0." ++ zeros (-point) ++ ds
  else if ds.length = 1 then ds ++ "e" ++ toString (point - 1)
  else (ds.take 1).toString ++ "." ++ (ds.drop 1).toString ++ "e" ++ toString (point - 1)

/-- The parts of a finite double other than zero. -/
def binaryOf (bits : UInt64) : Binary :=
  let fraction := bits.toNat % 1 <<< 52
  let exponent := bits.toNat >>> 52 % 2048
  if exponent = 0 then ⟨fraction, 0, false⟩
  else ⟨fraction + 1 <<< 52, exponent - 1, fraction = 0 && 1 < exponent⟩

/-- The shortest text that reads back as a double, if it is finite. -/
def ofFloat? (x : Float) : Option String :=
  if !x.isFinite then none
  else
    let sign := if x.toBits >>> 63 = 0 then "" else "-"
    if x == 0 then some (sign ++ "0.0")
    else
      let d := (binaryOf x.toBits).shortest
      some (sign ++ layOut d.digits ((d.place : Int) - 1100))

end DatagramSession.Decimal
