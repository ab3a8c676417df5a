import DatagramSession.Envelope
/-!
# Packets

A packet is a header and one of four bodies: a hello that asks for registration, an envelope, a
control frame, or a disconnect notice.  `Header.isValid` says which headers this protocol accepts,
and `PacketError` lists why a packet may not go out or come in.
-/
namespace DatagramSession

/-- The largest datagram that is sent. -/
def maxPacketSize : Nat := 65507

/-- The largest command payload that is accepted for sending; the rest of a datagram is for
framing. -/
def maxPayloadSize : Nat := 60000

/-- The first word of every packet. -/
def protocolMagic : UInt32 := 0x434F5552

def protocolVersion : UInt32 := 1

/-- A number that a client picks for each session. -/
abbrev Nonce := UInt64

/-- A number that a server gives to each connection. -/
abbrev ConnectionId := UInt32

/-- What every packet starts with; `sequence` counts the packets of its sender. -/
structure Header where
  magic : UInt32 := protocolMagic
  version : UInt32 := protocolVersion
  sequence : UInt32
  deriving DecidableEq, Repr

/-- Packets of another protocol or version are not looked at. -/
def Header.isValid (h : Header) : Bool :=
  h.magic = protocolMagic && h.version = protocolVersion

/-- What a control frame tells the other party. -/
inductive ControlMessage where
  | registered (id : ConnectionId)
  | servicesReady
  | kick (reason : String)
  | confirm
  deriving DecidableEq, Repr

/-- A numbered control message with eight flag bits. -/
structure ControlFrame where
  order : OrderNumber
  flags : UInt8
  message : ControlMessage
  deriving DecidableEq, Repr

namespace ControlFrame

/-- The flag that asks for, or gives, a confirmation. -/
def confirmFlag : UInt8 := 1

/-- A frame with the confirm flag or with no flag. -/
def numbered (order : OrderNumber) (message : ControlMessage) (confirm : Bool) : ControlFrame :=
  { order, flags := if confirm then confirmFlag else 0, message }

/-- The flag bits that have a meaning; the others are ignored. -/
def knownFlags (f : ControlFrame) : UInt8 :=
  f.flags &&& confirmFlag

def confirms (f : ControlFrame) : Bool :=
  f.knownFlags = confirmFlag

@[simp] theorem confirms_numbered (n : OrderNumber) (m : ControlMessage) (b : Bool) :
    (numbered n m b).confirms = b := by
  cases b <;> simp [numbered, confirms, knownFlags, confirmFlag]

end ControlFrame

/-- A client's request to bind one of its endpoints to one channel of the connection that it is
building. -/
structure Hello where
  nonce : Nonce
  channel : UInt8
  game : String
  version : UInt32
  deriving DecidableEq, Repr

/-- The four kinds of packet. -/
inductive Body where
  | register (hello : Hello)
  | envelope (envelope : Envelope)
  | control (frame : ControlFrame)
  | disconnect
  deriving DecidableEq, Repr

structure Packet where
  header : Header
  body : Body
  deriving DecidableEq, Repr

/-- A packet of this protocol and version. -/
def Packet.numbered (sequence : UInt32) (body : Body) : Packet :=
  { header := { sequence }, body }

/-- Why a packet was not sent or not understood. -/
inductive PacketError where
  | undecodable
  | tooLarge (size : Nat)
  | linkDown
  deriving DecidableEq, Repr

/-- The wording of an error, where it has one. -/
def PacketError.message? : PacketError → Option String
  | undecodable => none
  | tooLarge size =>
    some ("packet of " ++ toString size ++ " bytes exceeds the " ++ toString maxPacketSize ++
      " byte limit")
  | linkDown => some "transport error: link down"

end DatagramSession
