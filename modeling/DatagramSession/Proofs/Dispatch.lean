import DatagramSession.Audience
import DatagramSession.Proofs.Unreliable
import Mathlib.Algebra.GroupWithZero.Nat
/-!
# The dispatch of one envelope

A call may change the state of the listeners in any way, and with it who listens.  An envelope is
handed to those whom it finds, all the same: a handler that is registered meanwhile hears nothing of
it, and one that is taken out meanwhile still hears all of it.  Main statement:
`dispatched_exactly`, which lists the calls that are made, in their order.
-/
namespace DatagramSession

namespace Envelope

/-- The batches that are new to a party with this watermark. -/
def freshBatches (e : Envelope) (watermark : Option OrderNumber) : List Batch :=
  e.guaranteed.filter fun b => b.id.isNewer watermark

theorem freshCommands_eq (e : Envelope) (watermark : Option OrderNumber) :
    e.freshCommands watermark = (e.freshBatches watermark).flatMap Batch.commands := rfl

theorem asksForAck_eq (e : Envelope) : e.asksForAck = decide (e.guaranteed ≠ []) := by
  cases guaranteed : e.guaranteed <;> simp [asksForAck, guaranteed]

section
variable {η : Type} (e : Envelope) (watermark : Option OrderNumber) (handlers : List η)

/-- The calls of an envelope, batch by batch. -/
theorem calls_eq : e.calls watermark handlers =
    ((e.freshBatches watermark).flatMap fun b => b.commands.flatMap fun c =>
      handlers.map (Call.guaranteed · c)) ++
        (if e.guaranteed ≠ [] then [Call.acknowledge (.ack e.order)] else [])
      ++ (e.unreliable.flatMap fun c => handlers.map (Call.unreliable · c)) := by
  simp only [calls, freshCommands_eq, List.flatMap_assoc, asksForAck_eq, decide_eq_true_eq]

/-- The outcome counts commands, however many handlers there are. -/
theorem length_freshCommands :
    (e.freshCommands watermark).length =
      ((e.freshBatches watermark).map fun b => b.commands.length).sum := by
  rw [freshCommands_eq, List.length_flatMap]

end

end Envelope

namespace Receiver

/-- Whoever listens, and whatever the calls do to the list of those who listen: an envelope that is
not newer than the watermark changes nothing.  A newer one makes the calls of its fresh batches,
then the acknowledgement if it carries any batch, then the calls of its unreliable commands, each
command to the handlers that the envelope has found, in their order and as often as they were
registered; each call is made in the state that the calls before it have left. -/
theorem dispatched_exactly {η σ : Type} [DecidableEq η] (r : Receiver η σ) (inbound : Inbound)
    (e : Envelope) (s : σ) (past : List (Call η)) :
    let newer := e.order.isNewer inbound.watermark
    let fresh := e.freshBatches inbound.watermark
    let handlers := r.handlers s
    let made : List (Call η) :=
      if newer then
        (fresh.flatMap fun b => b.commands.flatMap fun c => handlers.map (Call.guaranteed · c))
          ++ (if e.guaranteed ≠ [] then [Call.acknowledge (.ack e.order)] else [])
          ++ (e.unreliable.flatMap fun c => handlers.map (Call.unreliable · c))
      else []
    let outcome : EnvelopeOutcome :=
      if newer then .accepted ((fresh.map fun b => b.commands.length).sum + e.unreliable.length)
        (e.guaranteed ≠ [])
      else .stale
    let after : Inbound := if newer then ⟨some e.order⟩ else inbound
    r.receive inbound e s = (outcome, after, r.performAll made s) ∧
    r.recorded.receive inbound e (s, past) = (outcome, after, r.performAll made s, past ++ made) ∧
    ∀ h, handedTo h made =
        (if newer then (fresh.flatMap Batch.commands).flatMap (List.replicate (handlers.count h))
          else []) ∧
      handedUnreliable h made =
        (if newer then e.unreliable.flatMap (List.replicate (handlers.count h)) else []) := by
  intro newer fresh handlers made outcome after
  have calls : made = if newer then e.calls inbound.watermark handlers else [] := by
    rw [e.calls_eq]
  have taken : inbound.take e = (outcome, after) := by
    simp only [Inbound.take, e.length_freshCommands, e.asksForAck_eq, outcome, after, newer, fresh]
    split <;> rfl
  refine ⟨?_, ?_, fun h => ?_⟩
  · rw [receive_eq, taken, calls]
    by_cases new : newer <;> simp [newer, new, handlers, performAll]
  · rw [receive_eq, taken, calls]
    simp only [performAll_recorded]
    by_cases new : newer <;> simp [newer, new, handlers, performAll, recorded]
  · rw [calls]
    by_cases new : newer
    · simp only [new, if_true]
      exact ⟨handedTo_calls h e _ _, handedUnreliable_calls h e _ _⟩
    · simp [new, handedTo]

/-- One listener brings in a companion and one leaves on the first command; the second command and
the acknowledgement find the audience changed, and the calls are those of the four registrations
that the envelope has found. -/
example :
    let audience : Audience Nat :=
      ((((({} : Audience Nat).register "p" .plain).register "s" .spawn).register "q" .quit).register
        "p" .plain)
    let first : Command := .message .guaranteed 1 [1]
    let second : Command := .message .guaranteed 1 [2]
    let after :=
      ((Audience.receiver 7).receive {} ⟨3, [⟨0, [first]⟩, ⟨3, [second]⟩], []⟩ audience).2.2
    after.present = [.registered "p", .registered "s", .registered "p", .companion "s"] ∧
    after.heard = ["p", "s", "q", "p"].map (.command · 7 .guaranteed first)
      ++ ["p", "s", "q", "p"].map (.command · 7 .guaranteed second) ++
      [.acknowledged 7 (.ack 3)] := by
  decide

end Receiver
end DatagramSession
