/-!
# Addresses

Where datagrams come from and go to: a host of either internet protocol version, and a port.
`Address.le` puts version 4 before version 6, then goes by the address as a number, then by port,
then by zone.  `Address.text` writes an address in its canonical form, and `Address.parse?` reads
one.
-/
namespace DatagramSession

/-- A host address; its octets are the digits of a number in base 256.  The zone tells apart the
links on which a version 6 address may be in use at once; zone zero is the default one. -/
inductive Host where
  | v4 (bits : UInt32)
  | v6 (high low : UInt64) (zone : UInt32)
  deriving DecidableEq, Repr

structure Address where
  host : Host
  port : UInt16
  deriving DecidableEq, Repr

namespace Host

/-- A number that orders hosts, zones apart: all of version 4 come before all of version 6. -/
def rank : Host → Nat
  | v4 bits => bits.toNat
  | v6 high low _ => UInt32.size + high.toNat * UInt64.size + low.toNat

/-- Version 4 hosts are in the default zone. -/
def zone : Host → UInt32
  | v4 _ => 0
  | v6 _ _ zone => zone

/-- The four decimal octets. -/
def dotted (bits : Nat) : String :=
  ".".intercalate ([24, 16, 8, 0].map fun shift => toString (bits >>> shift % 256))

/-- The eight groups of 16 bits of a version 6 host. -/
def groups (high low : UInt64) : List Nat :=
  [high, low].flatMap fun half => [48, 32, 16, 0].map fun shift => half.toNat >>> shift % 65536

/-- Lower-case hexadecimal groups with colons between them. -/
def hexGroups (gs : List Nat) : String :=
  ":".intercalate (gs.map fun g => String.ofList (Nat.toDigits 16 g))

/-- Start and length of the first longest run of zero groups. -/
def longestZeros (gs : List Nat) : Nat × Nat :=
  (List.range gs.length).foldl
    (fun best start =>
      let run := ((gs.drop start).takeWhile (· = 0)).length
      if best.2 < run then (start, run) else best)
    (0, 0)

/-- The canonical text of a version 6 host: an embedded version 4 address stays dotted, else the
first longest run of at least two zero groups is left out. -/
def text6 (high low : UInt64) : String :=
  if high = 0 && low >>> 32 = 0xffff then "::ffff:" ++ dotted (low.toNat % UInt32.size)
  else
    let gs := groups high low
    let (start, run) := longestZeros gs
    if 1 < run then hexGroups (gs.take start) ++ "::" ++ hexGroups (gs.drop (start + run))
    else hexGroups gs

/-- The canonical text of a host; version 6 stands in brackets before a port, and names a zone that
is not the default one. -/
def text : Host → String
  | v4 bits => dotted bits.toNat
  | v6 high low zone =>
    "[" ++ text6 high low ++ (if zone = 0 then "" else "%" ++ toString zone) ++ "]"

/-- A decimal number below a bound. -/
def below? (bound : Nat) (s : String) : Option Nat := do
  let n ← if s.all Char.isDigit then s.toNat? else none
  if n < bound then some n else none

/-- A decimal octet without leading zeros. -/
def octet? (s : String) : Option Nat :=
  (below? 256 s).filter fun n => toString n = s

/-- Four octets as one number. -/
def dotted? (s : String) : Option Nat := do
  let octets ← (s.splitOn ".").mapM octet?
  if octets.length = 4 then some (octets.foldl (fun n o => n * 256 + o) 0) else none

def hexDigit? (c : Char) : Option Nat :=
  if c.isDigit then some (c.toNat - '0'.toNat)
  else if 'a' ≤ c && c ≤ 'f' then some (c.toNat - 'a'.toNat + 10)
  else if 'A' ≤ c && c ≤ 'F' then some (c.toNat - 'A'.toNat + 10)
  else none

/-- A group of one to four hexadecimal digits. -/
def group? (s : String) : Option Nat := do
  let digits ← s.toList.mapM hexDigit?
  if 1 ≤ digits.length && digits.length ≤ 4 then some (digits.foldl (fun n d => n * 16 + d) 0)
  else none

/-- Groups with colons between them; the last one may be a dotted address, which fills two
groups. -/
def groupsOf? (s : String) : Option (List Nat) :=
  if s.isEmpty then some [] else do
    let parts := s.splitOn ":"
    let heads ← parts.dropLast.mapM group?
    let last := parts.getLastD ""
    if last.contains '.' then
      let bits ← dotted? last
      some (heads ++ [bits / 65536, bits % 65536])
    else
      let g ← group? last
      some (heads ++ [g])

/-- All eight groups; a double colon stands for at least one zero group. -/
def eightGroups? (s : String) : Option (List Nat) :=
  match s.splitOn "::" with
  | [whole] => do
    let gs ← groupsOf? whole
    if gs.length = 8 then some gs else none
  | [front, back] => do
    let f ← groupsOf? front
    let b ← groupsOf? back
    if f.length + b.length < 8 && !front.contains '.' then
      some (f ++ List.replicate (8 - f.length - b.length) 0 ++ b)
    else none
  | _ => none

/-- Eight groups, and a zone after a percent sign if it is not the default one. -/
def parse6? (s : String) : Option Host := do
  let (groups, zone) ← match s.splitOn "%" with
    | [groups] => some (groups, 0)
    | [groups, zone] => do some (groups, ← below? UInt32.size zone)
    | _ => none
  let gs ← eightGroups? groups
  let join (gs : List Nat) : UInt64 := UInt64.ofNat (gs.foldl (fun n g => n * 65536 + g) 0)
  some (v6 (join (gs.take 4)) (join (gs.drop 4)) (UInt32.ofNat zone))

end Host

namespace Address

/-- The order in which datagrams to different addresses are listed. -/
def le (a b : Address) : Bool :=
  a.host.rank < b.host.rank
    || (a.host.rank = b.host.rank
      && (a.port < b.port || (a.port = b.port && a.host.zone ≤ b.host.zone)))

def text (a : Address) : String :=
  a.host.text ++ ":" ++ toString a.port

def port? (s : String) : Option UInt16 :=
  (Host.below? 65536 s).map UInt16.ofNat

/-- Reads a dotted or bracketed host, a colon and a port. -/
def parse? (s : String) : Option Address :=
  match s.toList with
  | '[' :: _ =>
    match s.splitOn "]:" with
    | [bracketed, port] => do some ⟨← Host.parse6? (bracketed.drop 1).toString, ← port? port⟩
    | _ => none
  | _ =>
    match s.splitOn ":" with
    | [host, port] => do some ⟨.v4 (UInt32.ofNat (← Host.dotted? host)), ← port? port⟩
    | _ => none

end Address
end DatagramSession
