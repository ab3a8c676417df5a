import DatagramSession.Packet
import DatagramSession.Text.Utf8
import DatagramSession.Wire.Word
/-!
# Writing packets

A datagram holds the out-of-line data first and a root of 48 bytes last.  The root and the records
point back at their data by relative pointers, so each writer takes the position at which its bytes
start: `commandsAt` and `batchesAt` say where the records of a list will lie, `commandBlock` and
`batchBlock` write the list.  Next to each writer stands the position where its bytes end, so
`Packet.wireSize` knows the length of a datagram without writing it.  `encode` refuses exactly the
packets whose datagram would be longer than `maxPacketSize`.
-/
namespace DatagramSession.Wire

/-- A relative pointer to `length` elements at `target`, lying at `source`. -/
def span (source target length : Nat) : List UInt8 :=
  pointerTo source target ++ littleEndian 4 length

/-! ## Commands -/

/-- The payloads of a list, one after the other. -/
def payloads (cs : List Command) : List UInt8 :=
  cs.flatMap Command.payload

def payloadsSize (cs : List Command) : Nat :=
  cs.foldr (fun c size => c.payload.length + size) 0

def reliabilityTag : Reliability → UInt8
  | .guaranteed => 0
  | .unreliable => 1

/-- The record at `pos` of a command whose payload lies at `data`. -/
def commandRecord (pos data : Nat) : Command → List UInt8
  | .ack confirmed => littleEndian 4 0 ++ littleEndian 4 confirmed.toNat ++ littleEndian 4 0
  | .message r kind payload =>
    [1, reliabilityTag r] ++ littleEndian 2 kind.toNat ++ span (pos + 4) data payload.length

/-- The records from `pos` on of commands whose payloads lie from `data` on. -/
def commandRecords (pos data : Nat) : List Command → List UInt8
  | [] => []
  | c :: cs =>
    commandRecord pos data c ++ commandRecords (pos + recordSize) (data + c.payload.length) cs

/-- Where the records of a list lie whose block starts at `pos`. -/
def commandsAt (pos : Nat) (cs : List Command) : Nat :=
  alignUp 4 (pos + payloadsSize cs)

/-- Where the block of a list ends that starts at `pos`. -/
def commandsEnd (pos : Nat) (cs : List Command) : Nat :=
  commandsAt pos cs + recordSize * cs.length

/-- A list of commands from `pos` on: the payloads, then the records on a multiple of four. -/
def commandBlock (pos : Nat) (cs : List Command) : List UInt8 :=
  payloads cs ++ padding 4 (pos + payloadsSize cs) ++ commandRecords (commandsAt pos cs) pos cs

/-! ## Batches -/

/-- The command blocks of the batches, one after the other. -/
def batchBlocks (pos : Nat) : List Batch → List UInt8
  | [] => []
  | b :: bs => commandBlock pos b.commands ++ batchBlocks (commandsEnd pos b.commands) bs

/-- Where the command blocks end. -/
def batchBlocksEnd (pos : Nat) : List Batch → Nat
  | [] => pos
  | b :: bs => batchBlocksEnd (commandsEnd pos b.commands) bs

/-- The record at `pos` of a batch whose command block starts at `data`. -/
def batchRecord (pos data : Nat) (b : Batch) : List UInt8 :=
  littleEndian 4 b.id.toNat ++ span (pos + 4) (commandsAt data b.commands) b.commands.length

def batchRecords (pos data : Nat) : List Batch → List UInt8
  | [] => []
  | b :: bs =>
    batchRecord pos data b ++ batchRecords (pos + recordSize) (commandsEnd data b.commands) bs

/-- Where the records of the batches lie whose block starts at `pos`. -/
def batchesAt (pos : Nat) (bs : List Batch) : Nat :=
  alignUp 4 (batchBlocksEnd pos bs)

def batchesEnd (pos : Nat) (bs : List Batch) : Nat :=
  batchesAt pos bs + recordSize * bs.length

/-- The batches from `pos` on: their command blocks, then their records on a multiple of four. -/
def batchBlock (pos : Nat) (bs : List Batch) : List UInt8 :=
  batchBlocks pos bs ++ padding 4 (batchBlocksEnd pos bs) ++ batchRecords (batchesAt pos bs) pos bs

/-! ## Texts -/

/-- The out-of-line bytes of a text: none if it fits into the root. -/
def textBlock (s : String) : List UInt8 :=
  if s.utf8ByteSize ≤ inlineSize then [] else Utf8.encode s

def textEnd (pos : Nat) (s : String) : Nat :=
  if s.utf8ByteSize ≤ inlineSize then pos else pos + s.utf8ByteSize

/-- The length of an out-of-line text: its low six bits, a mark that no text can start with, the
other bits. -/
def markedLength (n : Nat) : Nat :=
  n % 64 + 128 + n / 64 * 256

/-- The eight bytes at `pos` of a text whose block starts at `data`. -/
def textField (pos data : Nat) (s : String) : List UInt8 :=
  if s.utf8ByteSize ≤ inlineSize then
    Utf8.encode s ++ List.replicate (inlineSize - s.utf8ByteSize) 255
  else
    littleEndian 4 (markedLength s.utf8ByteSize) ++ pointerTo pos data

/-! ## Packets -/

/-- The out-of-line data of a body. -/
def bodyBlock : Body → List UInt8
  | .register hello => textBlock hello.game
  | .envelope e =>
    batchBlock 0 e.guaranteed ++ commandBlock (batchesEnd 0 e.guaranteed) e.unreliable
  | .control ⟨_, _, .kick reason⟩ => textBlock reason
  | .control _ => []
  | .disconnect => []

/-- Where the out-of-line data of a body ends. -/
def bodyEnd : Body → Nat
  | .register hello => textEnd 0 hello.game
  | .envelope e => commandsEnd (batchesEnd 0 e.guaranteed) e.unreliable
  | .control ⟨_, _, .kick reason⟩ => textEnd 0 reason
  | .control _ => 0
  | .disconnect => 0

/-- The tag of a control message and its eight bytes at `pos`. -/
def messageFields (pos : Nat) : ControlMessage → UInt8 × List UInt8
  | .registered id => (0, littleEndian 8 id.toNat)
  | .servicesReady => (1, littleEndian 8 0)
  | .kick reason => (2, textField pos 0 reason)
  | .confirm => (3, littleEndian 8 0)

/-- The last 32 bytes of a root at `root`: the tag of the body and its fields. -/
def bodyFields (root : Nat) : Body → List UInt8
  | .register hello =>
    littleEndian 8 0 ++ littleEndian 8 hello.nonce.toNat ++ littleEndian 4 hello.channel.toNat
      ++ textField (root + 36) 0 hello.game ++ littleEndian 4 hello.version.toNat
  | .envelope e =>
    littleEndian 4 1 ++ littleEndian 4 e.order.toNat
      ++ span (root + 24) (batchesAt 0 e.guaranteed) e.guaranteed.length
      ++ span (root + 32) (commandsAt (batchesEnd 0 e.guaranteed) e.unreliable) e.unreliable.length
      ++ littleEndian 8 0
  | .control f =>
    let (tag, fields) := messageFields (root + 32) f.message
    littleEndian 4 2 ++ littleEndian 4 f.order.toNat ++ littleEndian 4 f.flags.toNat
      ++ littleEndian 4 tag.toNat ++ fields ++ littleEndian 8 0
  | .disconnect => littleEndian 8 3 ++ littleEndian 8 0 ++ littleEndian 8 0 ++ littleEndian 8 0

/-- The root at `root`. -/
def rootRecord (root : Nat) (p : Packet) : List UInt8 :=
  littleEndian 4 p.header.magic.toNat ++ littleEndian 4 p.header.version.toNat
    ++ littleEndian 8 p.header.sequence.toNat ++ bodyFields root p.body

/-- Where the root lies. -/
def rootAt (body : Body) : Nat :=
  alignUp 8 (bodyEnd body)

/-- All bytes of a packet, however many they are. -/
def layOut (p : Packet) : List UInt8 :=
  bodyBlock p.body ++ padding 8 (bodyEnd p.body) ++ rootRecord (rootAt p.body) p

/-- The number of bytes that `layOut` writes. -/
def wireSize (p : Packet) : Nat :=
  rootAt p.body + rootSize

/-- The datagram of a packet, if it is not too large to be sent. -/
def encode (p : Packet) : Except PacketError (List UInt8) :=
  if wireSize p ≤ maxPacketSize then .ok (layOut p) else .error (.tooLarge (wireSize p))

end DatagramSession.Wire
