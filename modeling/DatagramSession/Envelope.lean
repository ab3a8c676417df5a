import DatagramSession.Command
/-!
# Envelopes

Everything a party sends in one flush: its whole unconfirmed guaranteed history, cut into batches,
and the unreliable commands of this flush.
-/
namespace DatagramSession

/-- The guaranteed commands of one flush, named by the order number of the envelope that first
carried them. -/
structure Batch where
  id : OrderNumber
  commands : List Command
  deriving DecidableEq, Repr

/-- One flush on its way to the other party. -/
structure Envelope where
  order : OrderNumber
  guaranteed : List Batch := []
  unreliable : List Command := []
  deriving DecidableEq, Repr

/-- The ids of the batches in the order in which the envelope carries them. -/
def Envelope.batchIds (e : Envelope) : List OrderNumber :=
  e.guaranteed.map Batch.id

end DatagramSession
