/-!
# Traffic counters

How many packets and bytes went out and came in, and how many packets were dropped on purpose.  The
counters are 64-bit words and wrap.
-/
namespace DatagramSession

structure NetworkStats where
  packetsSent : UInt64 := 0
  packetsReceived : UInt64 := 0
  packetsDropped : UInt64 := 0
  bytesSent : UInt64 := 0
  bytesReceived : UInt64 := 0
  deriving DecidableEq, Repr

namespace NetworkStats

def recordSent (s : NetworkStats) (bytes : UInt64) : NetworkStats :=
  { s with packetsSent := s.packetsSent + 1, bytesSent := s.bytesSent + bytes }

def recordReceived (s : NetworkStats) (bytes : UInt64) : NetworkStats :=
  { s with packetsReceived := s.packetsReceived + 1, bytesReceived := s.bytesReceived + bytes }

def recordDropped (s : NetworkStats) : NetworkStats :=
  { s with packetsDropped := s.packetsDropped + 1 }

end NetworkStats
end DatagramSession
