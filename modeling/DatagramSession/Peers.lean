import DatagramSession.Outbound
import DatagramSession.Packet
import DatagramSession.Table
/-!
# Sending to peers

A `PeerSlot` is one party's place for one peer: empty while the peer is not connected, else its
outbound state.  A `PeerMap` holds such places for many peers.  Every operation on a map is the slot
operation at one key, so that a map is nothing but its slots side by side.
-/
namespace DatagramSession

/-- The outbound state for one peer, if the peer is connected. -/
abbrev PeerSlot := Option Outbound

namespace PeerSlot

/-- A fresh start, whatever was there before. -/
def connected : PeerSlot := some {}

/-- Queues a command, unless the peer is absent or the payload could never fit into a datagram. -/
def enqueue (c : Command) (slot : PeerSlot) : Bool × PeerSlot :=
  if c.payload.length ≤ maxPayloadSize then (slot.isSome, slot.map (·.push c)) else (false, slot)

/-- Takes the next envelope, if the peer is there and one is due. -/
def flush : PeerSlot → Option Envelope × PeerSlot
  | some o => (o.flush.1, some o.flush.2)
  | none => (none, none)

def keepAlive (slot : PeerSlot) : Bool × PeerSlot :=
  (slot.isSome, slot.map Outbound.keepAlive)

/-- Applies a confirmation by the peer and counts the batches that it releases. -/
def confirm (order : OrderNumber) : PeerSlot → Nat × PeerSlot
  | some o => ((o.confirm order).1, some (o.confirm order).2)
  | none => (0, none)

def unconfirmed : PeerSlot → Nat
  | some o => o.unconfirmed
  | none => 0

/-- What a party does with an unreliable command of its peer: acknowledgements release batches. -/
def heed (c : Command) (slot : PeerSlot) : PeerSlot :=
  match c.confirmed? with
  | some order => (slot.confirm order).2
  | none => slot

end PeerSlot

/-- The outbound states of many peers. -/
abbrev PeerMap (κ : Type) := Table κ Outbound

namespace PeerMap

variable {κ : Type} [DecidableEq κ]

/-- Performs a slot operation at one key. -/
def atPeer {α : Type} (peers : PeerMap κ) (peer : κ) (f : PeerSlot → α × PeerSlot) :
    α × PeerMap κ :=
  ((f (peers.find? peer)).1, peers.set peer (f (peers.find? peer)).2)

/-- Connects a peer, unless it is connected already. -/
def add (peers : PeerMap κ) (peer : κ) : Bool × PeerMap κ :=
  if peers.contains peer then (false, peers) else (true, peers.insert peer {})

def remove (peers : PeerMap κ) (peer : κ) : Bool × PeerMap κ :=
  (peers.contains peer, peers.erase peer)

def enqueue (peers : PeerMap κ) (peer : κ) (c : Command) : Bool × PeerMap κ :=
  peers.atPeer peer (PeerSlot.enqueue c)

def flush (peers : PeerMap κ) (peer : κ) : Option Envelope × PeerMap κ :=
  peers.atPeer peer PeerSlot.flush

def keepAlive (peers : PeerMap κ) (peer : κ) : Bool × PeerMap κ :=
  peers.atPeer peer PeerSlot.keepAlive

def confirm (peers : PeerMap κ) (peer : κ) (order : OrderNumber) : Nat × PeerMap κ :=
  peers.atPeer peer (PeerSlot.confirm order)

def heed (peers : PeerMap κ) (peer : κ) (c : Command) : PeerMap κ :=
  (peers.atPeer peer fun slot => ((), slot.heed c)).2

def unconfirmed (peers : PeerMap κ) (peer : κ) : Nat :=
  PeerSlot.unconfirmed (peers.find? peer)

/-- Queues a command for each of the given peers and counts those that took it. -/
def enqueueAll (c : Command) : List κ → PeerMap κ → Nat × PeerMap κ
  | [], peers => (0, peers)
  | peer :: rest, peers =>
    let (taken, peers) := peers.enqueue peer c
    let (count, peers) := enqueueAll c rest peers
    ((if taken then 1 else 0) + count, peers)

/-- Queues a command for every peer. -/
def broadcast (peers : PeerMap κ) (c : Command) : Nat × PeerMap κ :=
  enqueueAll c peers.keys peers

/-- Takes the due envelopes of the given peers. -/
def flushEach : List κ → PeerMap κ → List (κ × Envelope) × PeerMap κ
  | [], peers => ([], peers)
  | peer :: rest, peers =>
    let (envelope?, peers) := peers.flush peer
    let (envelopes, peers) := flushEach rest peers
    ((envelope?.map (peer, ·)).toList ++ envelopes, peers)

/-- Takes the due envelopes of all peers. -/
def flushAll (peers : PeerMap κ) : List (κ × Envelope) × PeerMap κ :=
  flushEach peers.keys peers

end PeerMap
end DatagramSession
