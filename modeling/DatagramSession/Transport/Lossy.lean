import DatagramSession.Config
import DatagramSession.Stats
import DatagramSession.Transport
/-!
# Lossy transports

A transport that silently discards a share of what it is given.  Whether a datagram is discarded
depends on a draw from the percentages below 100; the sender cannot tell.
-/
namespace DatagramSession

/-- A draw below the share discards a datagram; a share of zero or less discards nothing. -/
def PacketLoss.drops (p : PacketLoss) (draw : Float32) : Bool :=
  p.enabled && decide (0 < p.percent) && decide (draw < p.percent)

structure LossyTransport where
  inner : Transport := {}
  loss : PacketLoss
  stats : NetworkStats := {}

namespace LossyTransport

/-- Discards a datagram or passes it on. -/
def sendBytes (t : LossyTransport) (draw : Float32) (target : Address) (bytes : List UInt8) :
    Except PacketError Nat × LossyTransport :=
  if t.loss.drops draw then (.ok bytes.length, { t with stats := t.stats.recordDropped })
  else
    let (result, inner) := t.inner.sendBytes target bytes
    (result, { t with inner })

/-- How many datagrams were discarded. -/
def dropped (t : LossyTransport) : UInt64 :=
  t.stats.packetsDropped

end LossyTransport
end DatagramSession
