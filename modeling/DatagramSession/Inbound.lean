import DatagramSession.Envelope
/-!
# The receiving half of a session

`Inbound` remembers the newest envelope that was processed.  An envelope that is not newer is
dropped whole; of a newer one the batches that are newer than the old watermark are delivered, then
the envelope is acknowledged if it carries any batch, then its unreliable commands are delivered.
`Receiver` says who listens: handlers of some type `η` that act on a state `σ`.  The handlers of one
envelope are those that listen when it arrives, whatever they do to the list meanwhile.

`Envelope.calls` is the list of calls that an envelope gives rise to, written down without
performing any of them.
-/
namespace DatagramSession

/-- The newest envelope of one peer that was processed. -/
structure Inbound where
  watermark : Option OrderNumber := none
  deriving DecidableEq, Repr

/-- What became of an envelope. -/
inductive EnvelopeOutcome where
  /-- The same or a later envelope was processed before. -/
  | stale
  /-- `delivered` counts the commands; `acked` says that an acknowledgement was given. -/
  | accepted (delivered : Nat) (acked : Bool)
  deriving DecidableEq, Repr

/-- One thing that a receiver does while it processes an envelope. -/
inductive Call (η : Type) where
  | guaranteed (handler : η) (command : Command)
  | acknowledge (ack : Command)
  | unreliable (handler : η) (command : Command)
  deriving DecidableEq, Repr

/-- Who listens to envelopes and what listening does to the state. -/
structure Receiver (η σ : Type) where
  /-- The handlers that are registered in a state, in the order of registration. -/
  handlers : σ → List η
  perform : Call η → σ → σ

namespace Envelope

/-- The guaranteed commands that are new to a party with this watermark. -/
def freshCommands (e : Envelope) (watermark : Option OrderNumber) : List Command :=
  (e.guaranteed.filter fun b => b.id.isNewer watermark).flatMap Batch.commands

/-- An envelope is acknowledged if it carries batches, even if all of them are old. -/
def asksForAck (e : Envelope) : Bool :=
  !e.guaranteed.isEmpty

/-- The calls of an envelope that is newer than the watermark: each new guaranteed command to each
handler, the acknowledgement, each unreliable command to each handler. -/
def calls {η : Type} (e : Envelope) (watermark : Option OrderNumber) (handlers : List η) :
    List (Call η) :=
  (e.freshCommands watermark).flatMap (fun c => handlers.map (Call.guaranteed · c))
    ++ (if e.asksForAck then [Call.acknowledge (.ack e.order)] else [])
    ++ e.unreliable.flatMap (fun c => handlers.map (Call.unreliable · c))

end Envelope

namespace Receiver

variable {η σ : Type}

/-- Hands one command to each handler in turn. -/
def handTo (r : Receiver η σ) (call : η → Call η) (handlers : List η) (s : σ) : σ :=
  handlers.foldl (fun s h => r.perform (call h) s) s

/-- Hands commands, one after the other, to each handler in turn. -/
def handAll (r : Receiver η σ) (call : η → Command → Call η) (handlers : List η)
    (commands : List Command) (s : σ) : σ :=
  commands.foldl (fun s c => r.handTo (call · c) handlers s) s

/-- Processes one envelope. -/
def receive (r : Receiver η σ) (inbound : Inbound) (e : Envelope) (s : σ) :
    EnvelopeOutcome × Inbound × σ :=
  if e.order.isNewer inbound.watermark then
    let handlers := r.handlers s
    let fresh := e.freshCommands inbound.watermark
    let s := r.handAll Call.guaranteed handlers fresh s
    let s := if e.asksForAck then r.perform (.acknowledge (.ack e.order)) s else s
    let s := r.handAll Call.unreliable handlers e.unreliable s
    (.accepted (fresh.length + e.unreliable.length) e.asksForAck, ⟨some e.order⟩, s)
  else (.stale, inbound, s)

theorem receive_of_not_isNewer (r : Receiver η σ) {inbound : Inbound} {e : Envelope} (s : σ)
    (h : e.order.isNewer inbound.watermark = false) :
    r.receive inbound e s = (.stale, inbound, s) := by
  simp [receive, h]

end Receiver
end DatagramSession
