import DatagramSession.Peers
import DatagramSession.Proofs.Exchange
import Mathlib.Data.List.Basic
/-!
# Slots as sendings

A slot for a peer holds an outbound state without its past.  `PeerSlot.Moves` says that whatever
happens to the slot may happen to a sending: any record of the past that fits the slot before can be
continued to one that fits it after.  Every operation on slots moves them (`moves_enqueue`,
`moves_flush`, `moves_heed`), and so does emptying one.
-/
namespace DatagramSession

/-- The outbound state of a sending is the one in the slot; an empty slot fits every sending. -/
def Sending.Fits (s : Sending) (slot : PeerSlot) : Prop :=
  ∀ o ∈ slot, s.outbound = o

namespace Sending

@[simp] theorem fits_none (s : Sending) : s.Fits none :=
  nofun

@[simp] theorem fits_some {s : Sending} {o : Outbound} : s.Fits (some o) ↔ s.outbound = o := by
  simp [Fits]

theorem outbound_flush (s : Sending) : s.flush.outbound = s.outbound.flush.2 := by
  by_cases due : s.outbound.isDue
  · rw [flush_of_isDue due, Outbound.flush_of_isDue due]
  · have idle : s.outbound.isDue = false := by simpa using due
    rw [flush_of_not_isDue idle, Outbound.flush_of_not_isDue idle]

theorem mail_flush (s : Sending) :
    s.flush.mail.map Mail.envelope = s.mail.map Mail.envelope ++ s.outbound.flush.1.toList := by
  by_cases due : s.outbound.isDue
  · rw [flush_of_isDue due, Outbound.flush_of_isDue due]
    simp [building]
  · have idle : s.outbound.isDue = false := by simpa using due
    rw [flush_of_not_isDue idle, Outbound.flush_of_not_isDue idle]
    simp

end Sending

/-- Whatever has become of the slot, with the envelopes `built` and perhaps while `heard` was being
taken, may have become of a sending. -/
structure PeerSlot.Moves (heard : Option Envelope) (built : List Envelope) (slot slot' : PeerSlot) :
    Prop where
  absent : slot = none → slot' = none ∧ built = []
  follows : ∀ s : Sending, s.Fits slot → ∃ s', Sending.Does heard s s' ∧ s'.Fits slot' ∧
    s'.mail.map Mail.envelope = s.mail.map Mail.envelope ++ built

namespace PeerSlot

variable {heard : Option Envelope} {built more : List Envelope} {slot slot' slot'' : PeerSlot}

theorem moves_rest (heard : Option Envelope) (slot : PeerSlot) : Moves heard [] slot slot :=
  ⟨fun empty => ⟨empty, rfl⟩, fun s fits => ⟨s, .rest s, fits, (List.append_nil _).symm⟩⟩

/-- The peer goes away. -/
theorem moves_none (heard : Option Envelope) (slot : PeerSlot) : Moves heard [] slot none :=
  ⟨fun _ => ⟨rfl, rfl⟩, fun s _ => ⟨s, .rest s, s.fits_none, (List.append_nil _).symm⟩⟩

theorem Moves.isSome (moves : Moves heard built slot slot') (present : slot'.isSome = true) :
    slot.isSome = true := by
  by_contra absent
  rw [(moves.absent (by simpa using absent)).1] at present
  cases present

theorem Moves.trans (first : Moves heard built slot slot')
    (second : Moves heard more slot' slot'') :
    Moves heard (built ++ more) slot slot'' := by
  constructor
  · intro empty
    obtain ⟨empty', rfl⟩ := first.absent empty
    exact second.absent empty'
  intro s fits
  obtain ⟨s', does, fits', mail⟩ := first.follows s fits
  obtain ⟨s'', does', fits'', mail'⟩ := second.follows s' fits'
  refine ⟨s'', does.trans does', fits'', ?_⟩
  rw [mail', mail, List.append_assoc]

/-- An operation on the outbound state that a sending can follow. -/
theorem moves_map {f : Outbound → Outbound}
    (follows : ∀ s : Sending, ∃ s', Sending.Does heard s s' ∧ s'.outbound = f s.outbound ∧
      s'.mail = s.mail) :
    Moves heard [] slot (slot.map f) := by
  cases slot with
  | none => exact moves_rest heard none
  | some o =>
    refine ⟨nofun, fun s fits => ?_⟩
    obtain ⟨s', does, outbound, mail⟩ := follows s
    rw [Sending.fits_some] at fits
    refine ⟨s', does, ?_, by rw [mail, List.append_nil]⟩
    simp [outbound, fits]

theorem moves_enqueue {c : Command} (message : c.confirmed? = none) :
    Moves heard [] slot (slot.enqueue c).2 := by
  unfold enqueue
  split
  · exact moves_map fun s => ⟨s.push c, .push c message (.rest s), rfl, rfl⟩
  · exact moves_rest heard slot

theorem moves_acknowledge {e : Envelope} (taken : e ∈ heard) :
    Moves heard [] slot (slot.enqueue (.ack e.order)).2 := by
  unfold enqueue
  split
  · exact moves_map fun s => ⟨s.push (.ack e.order), .acknowledge taken (.rest s), rfl, rfl⟩
  · exact moves_rest heard slot

theorem moves_keepAlive : Moves heard [] slot slot.keepAlive.2 :=
  moves_map fun s => ⟨s.keepAlive, .keepAlive (.rest s), rfl, rfl⟩

theorem moves_heed {e : Envelope} (taken : e ∈ heard) {c : Command} (carried : c ∈ e.unreliable) :
    Moves heard [] slot (slot.heed c) := by
  unfold heed
  cases confirms : c.confirmed? with
  | none => exact moves_rest heard slot
  | some order =>
    have released : (slot.confirm order).2 = slot.map fun o => (o.confirm order).2 := by
      cases slot <;> rfl
    simp only [released]
    exact moves_map fun s => ⟨s.confirm order, .confirm taken carried confirms (.rest s), rfl, rfl⟩

theorem moves_flush : Moves heard slot.flush.1.toList slot slot.flush.2 := by
  cases slot with
  | none => exact moves_rest heard none
  | some o =>
    refine ⟨nofun, fun s fits => ?_⟩
    rw [Sending.fits_some] at fits
    subst fits
    exact ⟨s.flush, .flush (.rest s), Sending.fits_some.2 s.outbound_flush, s.mail_flush⟩

end PeerSlot
end DatagramSession
