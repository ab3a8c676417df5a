import DatagramSession.Packet
/-!
# Deliveries

The handlers of the application, and what they are given, in the order of the calls.
-/
namespace DatagramSession

/-- A handler of the application.  Several may go by one name, and `earlier` counts those that were
added under the name before. -/
structure AppHandler where
  name : String
  earlier : Nat := 0
  deriving DecidableEq, Repr

/-- One command in the hands of one application handler. -/
structure Delivery where
  handler : String
  /-- The connection that the command came from; a client's commands come from its server. -/
  source : Option ConnectionId
  /-- The list of the envelope in which the command came. -/
  channel : Reliability
  command : Command
  deriving DecidableEq, Repr

end DatagramSession
