import DatagramSession.Envelope
/-!
# The sending half of a session

Commands wait in two queues until the next flush.  A flush turns the guaranteed ones into a batch,
adds it to the history and sends the whole history, so that a batch travels in every envelope until
the other party confirms it.  Unreliable commands travel in one envelope only.  `Outbound.confirm`
forgets the confirmed batches; the history keeps its party due for sending until it is empty.
-/
namespace DatagramSession

/-- What one party still has to send to one peer. -/
structure Outbound where
  guaranteed : List Command := []
  unreliable : List Command := []
  /-- The batches that the peer has not confirmed, oldest first. -/
  history : List Batch := []
  nextOrder : OrderNumber := 0
  /-- Something was queued or asked for since the last flush. -/
  asked : Bool := false
  deriving DecidableEq, Repr

namespace Outbound

/-- Queues a command for the next flush. -/
def push (o : Outbound) (c : Command) : Outbound :=
  if c.isGuaranteed then { o with guaranteed := o.guaranteed ++ [c], asked := true }
  else { o with unreliable := o.unreliable ++ [c], asked := true }

/-- Asks for an envelope at the next flush even if nothing is queued. -/
def keepAlive (o : Outbound) : Outbound :=
  { o with asked := true }

/-- An unconfirmed history is sent again at every flush. -/
def isDue (o : Outbound) : Bool :=
  o.asked || !o.history.isEmpty

/-- The number of batches that wait for a confirmation. -/
def unconfirmed (o : Outbound) : Nat :=
  o.history.length

/-- The history once the queued guaranteed commands, if any, have become a batch. -/
def extendedHistory (o : Outbound) : List Batch :=
  if o.guaranteed.isEmpty then o.history else o.history ++ [⟨o.nextOrder, o.guaranteed⟩]

/-- The envelope of the next flush. -/
def envelope (o : Outbound) : Envelope where
  order := o.nextOrder
  guaranteed := o.extendedHistory
  unreliable := o.unreliable

/-- What is left once the envelope has been taken. -/
def flushed (o : Outbound) : Outbound where
  history := o.extendedHistory
  nextOrder := o.nextOrder + 1

/-- Takes the next envelope, if one is due. -/
def flush (o : Outbound) : Option Envelope × Outbound :=
  if o.isDue then (some o.envelope, o.flushed) else (none, o)

/-- The batches that a confirmation of `order` releases: those before the first later one. -/
def released (order : OrderNumber) (history : List Batch) : List Batch :=
  history.takeWhile fun b => !b.id.after order

/-- The batches that a confirmation of `order` leaves: those from the first later one on. -/
def remaining (order : OrderNumber) (history : List Batch) : List Batch :=
  history.dropWhile fun b => !b.id.after order

/-- Forgets the released batches and counts them. -/
def confirm (o : Outbound) (order : OrderNumber) : Nat × Outbound :=
  ((released order o.history).length, { o with history := remaining order o.history })

theorem released_append_remaining (order : OrderNumber) (history : List Batch) :
    released order history ++ remaining order history = history :=
  List.takeWhile_append_dropWhile

theorem flush_of_not_isDue {o : Outbound} (h : o.isDue = false) : o.flush = (none, o) := by
  simp [flush, h]

theorem flush_of_isDue {o : Outbound} (h : o.isDue = true) :
    o.flush = (some o.envelope, o.flushed) := by
  simp [flush, h]

end Outbound
end DatagramSession
