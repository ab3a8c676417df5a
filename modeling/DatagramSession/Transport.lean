import DatagramSession.Address
import DatagramSession.Wire.Encoding
/-!
# Transports

A transport takes datagrams and puts them into an outbox, from which the network takes them.  It may
refuse any datagram; the sender is told.  A datagram that is accepted may still be lost: transports
promise nothing more.
-/
namespace DatagramSession

structure Datagram where
  target : Address
  bytes : List UInt8
  deriving DecidableEq, Repr

/-- A way out for datagrams. -/
structure Transport where
  refuses : Datagram → Bool := fun _ => false
  /-- The datagrams that were accepted and not yet taken, oldest first. -/
  sent : List Datagram := []

namespace Transport

/-- Sends bytes as they are and gives back how many they were. -/
def sendBytes (t : Transport) (target : Address) (bytes : List UInt8) :
    Except PacketError Nat × Transport :=
  if t.refuses ⟨target, bytes⟩ then (.error .linkDown, t)
  else (.ok bytes.length, { t with sent := t.sent ++ [⟨target, bytes⟩] })

/-- Encodes a packet and sends it; a packet that is too large does not reach the link. -/
def send (t : Transport) (target : Address) (p : Packet) : Except PacketError Nat × Transport :=
  match Wire.encode p with
  | .error e => (.error e, t)
  | .ok bytes => t.sendBytes target bytes

/-- Takes everything out of the outbox. -/
def takeSent (t : Transport) : List Datagram × Transport :=
  (t.sent, { t with sent := [] })

/-- The same outbox on a link that takes everything or nothing. -/
def withLink (t : Transport) (down : Bool) : Transport :=
  { t with refuses := fun _ => down }

end Transport
end DatagramSession
