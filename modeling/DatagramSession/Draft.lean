import DatagramSession.Address
import DatagramSession.Clock
import DatagramSession.Packet
/-!
# Drafts

A connection comes into being once each of its channels has an endpoint.  Until then it is a draft:
one slot for each channel, empty or bound to an endpoint.
-/
namespace DatagramSession

/-- Why a hello is against the protocol. -/
inductive RegistrationError where
  | channelOutOfRange (channel : UInt8) (channels : Nat)
  | channelConflict (channel : UInt8) (existing endpoint : Address)
  | endpointInUse (endpoint : Address)
  deriving DecidableEq, Repr

def RegistrationError.message : RegistrationError → String
  | channelOutOfRange channel channels =>
    "channel " ++ toString channel ++ " out of range, server expects " ++ toString channels
  | channelConflict channel existing endpoint =>
    "channel " ++ toString channel ++ " already bound to " ++ existing.text ++ ", refusing " ++
      endpoint.text
  | endpointInUse endpoint => endpoint.text ++ " is already registered to another client"

/-- A connection that still lacks endpoints. -/
structure Draft where
  nonce : Nonce
  slots : List (Option Address)
  created : Instant
  deriving DecidableEq, Repr

namespace Draft

/-- A draft with empty slots, at least one. -/
def empty (nonce : Nonce) (channels : Nat) (now : Instant) : Draft :=
  { nonce, slots := List.replicate (max channels 1) none, created := now }

/-- Binds a slot.  It is refused if the slot holds a different endpoint. -/
def bind (d : Draft) (channel : UInt8) (endpoint : Address) : Except RegistrationError Draft :=
  match d.slots[channel.toNat]? with
  | none => .error (.channelOutOfRange channel d.slots.length)
  | some (some existing) =>
    if existing = endpoint then .ok d else .error (.channelConflict channel existing endpoint)
  | some none => .ok { d with slots := d.slots.set channel.toNat (some endpoint) }

/-- The bound endpoints in the order of their channels. -/
def endpoints (d : Draft) : List Address :=
  d.slots.filterMap id

def isComplete (d : Draft) : Bool :=
  d.slots.all Option.isSome

def hasEndpoint (d : Draft) (endpoint : Address) : Bool :=
  d.endpoints.contains endpoint

/-- The endpoint of channel 0 and those of the other channels, if every slot is bound. -/
def complete? (d : Draft) : Option (Address × List Address) :=
  match d.isComplete, d.endpoints with
  | true, first :: rest => some (first, rest)
  | _, _ => none

def isOlderThan (d : Draft) (timeout : Duration) (now : Instant) : Bool :=
  timeout < now - d.created

end Draft
end DatagramSession
