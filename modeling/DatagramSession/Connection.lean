import DatagramSession.ControlQueue
import DatagramSession.Draft
import DatagramSession.Inbound
import DatagramSession.Table
/-!
# Connections

A server's record of one registered client: who it is and where it listens, what was received from
it and when, the control messages that it has yet to confirm, and what the application notes about
it.
-/
namespace DatagramSession

/-- What an application may note about a connection. -/
inductive Attribute where
  | text (value : String)
  | u32 (value : UInt32)
  | u64 (value : UInt64)
  | i64 (value : Int64)
  | bool (value : Bool)
  | instant (value : Instant)
  deriving DecidableEq

structure Connection where
  id : ConnectionId
  nonce : Nonce
  /-- The endpoint of channel 0, to which everything is sent. -/
  address : Address
  /-- The endpoints of the other channels. -/
  others : List Address
  attributes : Table String Attribute := {}
  control : ControlQueue := {}
  inbound : Inbound := {}
  lastReceived : Instant
  lastSent : Instant
  /-- The sequence number of the next packet to this client. -/
  sequence : UInt32 := 0
  closed : Bool := false
  deriving DecidableEq

namespace Connection

/-- A connection that has just been registered. -/
def fresh (id : ConnectionId) (nonce : Nonce) (address : Address) (others : List Address)
    (now : Instant) :
    Connection :=
  { id, nonce, address, others, lastReceived := now, lastSent := now }

/-- The endpoints in the order of their channels. -/
def endpoints (c : Connection) : List Address :=
  c.address :: c.others

def hasEndpoint (c : Connection) (endpoint : Address) : Bool :=
  c.endpoints.contains endpoint

def setAttribute (c : Connection) (name : String) (value : Attribute) : Connection :=
  { c with attributes := c.attributes.insert name value }

def attribute? (c : Connection) (name : String) : Option Attribute :=
  c.attributes.find? name

def removeAttribute (c : Connection) (name : String) : Bool × Connection :=
  (c.attributes.contains name, { c with attributes := c.attributes.erase name })

/-- The names of the attributes in the order of their characters. -/
def attributeNames (c : Connection) : List String :=
  c.attributes.keys.mergeSort fun a b => decide (a ≤ b)

/-- Queues a control message. -/
def tell (c : Connection) (m : ControlMessage) : Connection :=
  { c with control := c.control.push m }

/-- Asks the client to go away, in place of everything else that it was to be told. -/
def kick (c : Connection) (reason : String) : Connection :=
  { c with control := c.control.replace (.kick reason) }

/-- The number of control messages that wait to be confirmed. -/
def pendingControl (c : Connection) : Nat :=
  c.control.waiting.length

def accept (c : Connection) (order : OrderNumber) (confirm : Bool) : Acceptance × Connection :=
  let (acceptance, control) := c.control.accept order confirm
  (acceptance, { c with control })

/-- Notes that something was received; time does not run backwards. -/
def touch (c : Connection) (now : Instant) : Connection :=
  { c with lastReceived := max c.lastReceived now }

def markSent (c : Connection) (now : Instant) : Connection :=
  { c with lastSent := now }

/-- Nothing was received for longer than the timeout. -/
def isTimedOut (c : Connection) (now : Instant) (timeout : Duration) : Bool :=
  timeout < now - c.lastReceived

/-- No envelope was sent for the interval. -/
def isIdle (c : Connection) (now : Instant) (interval : Duration) : Bool :=
  interval ≤ now - c.lastSent

/-- Uses up a sequence number. -/
def nextSequence (c : Connection) : UInt32 × Connection :=
  (c.sequence, { c with sequence := c.sequence + 1 })

def markClosed (c : Connection) : Connection :=
  { c with closed := true }

/-- A connection in one line, for logs. -/
def describe (c : Connection) : String :=
  "Connection \x7b id: " ++ toString c.id ++ ", endpoints: [" ++ ", ".intercalate
    (c.endpoints.map Address.text) ++ "], closed: " ++ toString c.closed ++ ", .. \x7d"

end Connection
end DatagramSession
