import DatagramSession.Packet
import DatagramSession.Text.Utf8
import DatagramSession.Wire.Word
/-!
# Reading packets

A datagram is read from its root, which is its last `rootSize` bytes.  What a pointer leads to must
lie in a window `[low, high)` of the datagram that no other object has claimed: an object may only
point at data that lies before itself, and of two objects the later one lies after the earlier one.
So each reader takes the window and gives back, with the value, where the free part of the window
now starts, and no byte is ever read as part of two lists.
-/
namespace DatagramSession.Wire

/-- `size` bytes at `pos` lie in the window and `pos` is a multiple of `step`. -/
def fits (low high pos size step : Nat) : Bool :=
  decide (low ≤ pos) && decide (pos + size ≤ high) && decide (pos % step = 0)

/-- The payload that the span at `pos` describes. -/
def readPayload (bytes : Array UInt8) (pos low high : Nat) : Option (List UInt8 × Nat) := do
  let data ← follow? bytes pos pos
  let size := wordAt bytes (pos + 4) 4
  if fits low high data size 1 then some (slice bytes data size, data + size) else none

def readReliability : Nat → Option Reliability
  | 0 => some .guaranteed
  | 1 => some .unreliable
  | _ => none

/-- The command whose record is at `pos`. -/
def readCommand (bytes : Array UInt8) (pos low high : Nat) : Option (Command × Nat) :=
  match wordAt bytes pos 1 with
  | 0 => some (.ack (UInt32.ofNat (wordAt bytes (pos + 4) 4)), low)
  | 1 => do
    let reliability ← readReliability (wordAt bytes (pos + 1) 1)
    let (payload, low) ← readPayload bytes (pos + 4) low high
    some (.message reliability (UInt16.ofNat (wordAt bytes (pos + 2) 2)) payload, low)
  | _ => none

/-- The commands whose records start at `pos`. -/
def readCommands (bytes : Array UInt8) (high : Nat) : Nat → Nat → Nat → Option (List Command × Nat)
  | 0, _, low => some ([], low)
  | count + 1, pos, low => do
    let (command, low) ← readCommand bytes pos low high
    let (rest, low) ← readCommands bytes high count (pos + recordSize) low
    some (command :: rest, low)

/-- The list of commands that the span at `pos` describes. -/
def readCommandList (bytes : Array UInt8) (pos low high : Nat) : Option (List Command × Nat) := do
  let records ← follow? bytes pos pos
  let count := wordAt bytes (pos + 4) 4
  if fits low high records (recordSize * count) 4 then
    let (commands, _) ← readCommands bytes records count records low
    some (commands, records + recordSize * count)
  else none

/-- The batches whose records start at `pos`. -/
def readBatches (bytes : Array UInt8) (high : Nat) : Nat → Nat → Nat → Option (List Batch × Nat)
  | 0, _, low => some ([], low)
  | count + 1, pos, low => do
    let (commands, low) ← readCommandList bytes (pos + 4) low high
    let (rest, low) ← readBatches bytes high count (pos + recordSize) low
    some (⟨UInt32.ofNat (wordAt bytes pos 4), commands⟩ :: rest, low)

/-- The list of batches that the span at `pos` describes. -/
def readBatchList (bytes : Array UInt8) (pos low high : Nat) : Option (List Batch × Nat) := do
  let records ← follow? bytes pos pos
  let count := wordAt bytes (pos + 4) 4
  if fits low high records (recordSize * count) 4 then
    let (batches, _) ← readBatches bytes records count records low
    some (batches, records + recordSize * count)
  else none

/-- The length of an out-of-line text, read from its marked form. -/
def unmarkedLength (n : Nat) : Nat :=
  n % 64 + n / 256 * 64

/-- The text whose eight bytes are at `pos`: marked ones point at it, others hold it up to a byte
255. -/
def readText (bytes : Array UInt8) (pos low high : Nat) : Option String :=
  if wordAt bytes pos 1 / 64 = 2 then do
    let size := unmarkedLength (wordAt bytes pos 4)
    let data ← follow? bytes (pos + 4) pos
    if inlineSize < size && fits low high data size 1 then Utf8.decode? (slice bytes data size)
    else none
  else
    Utf8.decode? ((slice bytes pos inlineSize).takeWhile (· ≠ 255))

/-- The control message whose tag is at `pos`, with its fields four bytes on. -/
def readMessage (bytes : Array UInt8) (pos high : Nat) : Option ControlMessage :=
  match wordAt bytes pos 1 with
  | 0 => some (.registered (UInt32.ofNat (wordAt bytes (pos + 4) 4)))
  | 1 => some .servicesReady
  | 2 => (readText bytes (pos + 4) 0 high).map .kick
  | 3 => some .confirm
  | _ => none

/-- The body of the packet whose root is at `root`. -/
def readBody (bytes : Array UInt8) (root : Nat) : Option Body :=
  match wordAt bytes (root + 16) 1 with
  | 0 => do
    let game ← readText bytes (root + 36) 0 root
    some (.register {
      nonce := UInt64.ofNat (wordAt bytes (root + 24) 8)
      channel := UInt8.ofNat (wordAt bytes (root + 32) 1)
      game
      version := UInt32.ofNat (wordAt bytes (root + 44) 4) })
  | 1 => do
    let (guaranteed, low) ← readBatchList bytes (root + 24) 0 root
    let (unreliable, _) ← readCommandList bytes (root + 32) low root
    some (.envelope { order := UInt32.ofNat (wordAt bytes (root + 20) 4), guaranteed, unreliable })
  | 2 => do
    let message ← readMessage bytes (root + 28) root
    some (.control {
      order := UInt32.ofNat (wordAt bytes (root + 20) 4)
      flags := UInt8.ofNat (wordAt bytes (root + 24) 1)
      message })
  | 3 => some .disconnect
  | _ => none

/-- The header of the packet whose root is at `root`. -/
def readHeader (bytes : Array UInt8) (root : Nat) : Header where
  magic := UInt32.ofNat (wordAt bytes root 4)
  version := UInt32.ofNat (wordAt bytes (root + 4) 4)
  sequence := UInt32.ofNat (wordAt bytes (root + 8) 4)

/-- The packet of a datagram, if it is one. -/
def decode? (datagram : List UInt8) : Option Packet :=
  let bytes := datagram.toArray
  let root := bytes.size - rootSize
  if rootSize ≤ bytes.size && root % 8 = 0 then
    (readBody bytes root).map fun body => { header := readHeader bytes root, body }
  else none

/-- The packet of a datagram, or the error of a datagram that is none. -/
def decode (datagram : List UInt8) : Except PacketError Packet :=
  match decode? datagram with
  | some p => .ok p
  | none => .error .undecodable

end DatagramSession.Wire
