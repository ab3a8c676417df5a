import DatagramSession.Packet
/-!
# Control queues

Control messages reach the other party one at a time and in order.  Only the head of the queue is
ever on the wire, under a number of its own, and it stays there until a frame with the confirm flag
comes back with that number.  Then, and when the queue is replaced, the number goes up, so that a
late confirmation cannot confirm another message.
-/
namespace DatagramSession

/-- Control messages that wait to be confirmed. -/
structure ControlQueue where
  waiting : List ControlMessage := []
  /-- The order number of the head. -/
  number : OrderNumber := 0
  /-- The order number of the newest frame that was accepted from the other party. -/
  accepted : Option OrderNumber := none
  deriving DecidableEq, Repr

/-- What became of a control frame of the other party. -/
inductive Acceptance where
  /-- The same or a later frame was accepted before. -/
  | stale
  /-- The frame is new; it may have confirmed the head. -/
  | accepted (confirmed : Option ControlMessage)
  deriving DecidableEq, Repr

namespace ControlQueue

def push (q : ControlQueue) (m : ControlMessage) : ControlQueue :=
  { q with waiting := q.waiting ++ [m] }

/-- Drops everything in favour of one message; a head that may be on the wire gives up its
number. -/
def replace (q : ControlQueue) (m : ControlMessage) : ControlQueue :=
  { q with waiting := [m], number := if q.waiting.isEmpty then q.number else q.number + 1 }

/-- The frame that is on the wire. -/
def head? (q : ControlQueue) : Option ControlFrame :=
  q.waiting.head?.map fun m => .numbered q.number m true

/-- Takes out the head. -/
def pop (q : ControlQueue) : ControlQueue :=
  match q.waiting with
  | [] => q
  | _ :: rest => { q with waiting := rest, number := q.number + 1 }

/-- Takes note of a frame with the given number and confirm flag. -/
def accept (q : ControlQueue) (order : OrderNumber) (confirm : Bool) : Acceptance × ControlQueue :=
  if order.isNewer q.accepted then
    let q := { q with accepted := some order }
    if confirm && order = q.number then (.accepted q.waiting.head?, q.pop) else (.accepted none, q)
  else (.stale, q)

theorem accept_of_not_isNewer {q : ControlQueue} {order : OrderNumber} (confirm : Bool)
    (h : order.isNewer q.accepted = false) : q.accept order confirm = (.stale, q) := by
  simp [accept, h]

end ControlQueue
end DatagramSession
