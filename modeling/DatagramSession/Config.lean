import DatagramSession.Clock
/-!
# Settings

What a server and a client can be told before they start, with the values that hold if nothing is
said.
-/
namespace DatagramSession

/-- Outgoing datagrams may be discarded on purpose, to see how a session copes. -/
structure PacketLoss where
  enabled : Bool
  /-- The share of datagrams to discard, in percent. -/
  percent : Float32

def defaultGame : String := "courier"

structure ServerConfig where
  game : String := defaultGame
  version : UInt32 := 1
  channels : Nat := 1
  maxClients : Nat := 32
  tickRate : UInt32 := 60
  ioThreads : Nat := 2
  resendInterval : Duration := milliseconds 200
  livenessTimeout : Duration := milliseconds 2000
  packetLoss : Option PacketLoss := none

structure ClientConfig where
  game : String := defaultGame
  version : UInt32 := 1
  tickRate : UInt32 := 60
  registrationRetry : Duration := milliseconds 200
  connectionTimeout : Duration := milliseconds 2000

end DatagramSession
