import DatagramSession.Proofs.Party
/-!
# One trip and its answer

A party flushes and the other one takes the envelope.  After that the other party knows every batch
(`delivered_trip`) and has an acknowledgement ready unless there was nothing to acknowledge
(`take_waits`); once the answer is taken too, the history is empty (`history_answered`).  An answer
that carries no batch calls for no further one (`asked_hearFrom`).
-/
namespace DatagramSession

/-- What a sender keeps whatever is queued and whatever is released. -/
structure Lasting (K : Sending → Prop) : Prop where
  push : ∀ s c, K s → K (s.push c)
  confirm : ∀ s order, K s → K (s.confirm order)

namespace Sending

theorem lasting_waits (c : Command) :
    Lasting fun s => c ∈ s.outbound.unreliable ∧ s.outbound.asked = true where
  push s d h := by
    by_cases guaranteed : d.isGuaranteed
    · simpa [push, Outbound.push, guaranteed] using h.1
    · simp [push, Outbound.push, guaranteed, h.1]
  confirm _ _ h := h

theorem lasting_mail (mail : List Mail) : Lasting fun s => s.mail = mail where
  push _ _ h := h
  confirm _ _ h := h

theorem history_push (s : Sending) (c : Command) :
    (s.push c).outbound.history = s.outbound.history := by
  by_cases guaranteed : c.isGuaranteed <;> simp [push, Outbound.push, guaranteed]

theorem lasting_history {P : Batch → Prop} : Lasting fun s => ∀ b ∈ s.outbound.history, P b where
  push s c h := by simpa only [history_push] using h
  confirm s order h := by
    intro b hb
    exact h b ((List.dropWhile_suffix _).subset hb)

theorem lasting_history_nil : Lasting fun s => s.outbound.history = [] where
  push s c h := by simpa only [history_push] using h
  confirm s order h := by simp [confirm, Outbound.confirm, Outbound.remaining, h]

/-- A confirmation that no batch of the history is after releases all of it. -/
theorem history_confirm {s : Sending} {order : OrderNumber}
    (old : ∀ b ∈ s.outbound.history, b.id.after order = false) :
    (s.confirm order).outbound.history = [] := by
  rw [confirm, Outbound.confirm, Outbound.remaining, List.dropWhile_eq_nil_iff]
  intro b hb
  simp [old b hb]

theorem asked_flush {s : Sending} : s.flush.outbound.asked = false := by
  by_cases due : s.outbound.isDue
  · rw [flush_of_isDue due]
    rfl
  · rw [flush_of_not_isDue (by simpa using due)]
    simp only [Outbound.isDue, Bool.or_eq_true, not_or] at due
    simpa using due.1

theorem Sound.guaranteed_flush {s : Sending} (h : s.Sound) : s.flush.outbound.guaranteed = [] :=
  (h.flush.idle asked_flush).1

/-- Nothing is due after a flush that had no batch to send. -/
theorem not_isDue_flush {s : Sending} (guaranteed : s.outbound.guaranteed = [])
    (history : s.outbound.history = []) :
    s.flush.outbound.isDue = false := by
  by_cases due : s.outbound.isDue
  · rw [flush_of_isDue due]
    simp [Outbound.flushed, Outbound.isDue, Outbound.extendedHistory, guaranteed, history]
  · rw [flush_of_not_isDue (by simpa using due)]
    simpa using due

/-- A history that is left after the first flush was carried by its envelope. -/
theorem isDue_of_history_flush {s : Sending} (h : s.flush.outbound.history ≠ []) :
    s.outbound.isDue = true ∧ s.building.envelope.asksForAck = true := by
  by_cases due : s.outbound.isDue
  · rw [flush_of_isDue due] at h
    refine ⟨due, ?_⟩
    simpa [Envelope.asksForAck, building, Outbound.envelope, Outbound.flushed] using h
  · rw [flush_of_not_isDue (by simpa using due)] at h
    simp [Outbound.isDue, h] at due

end Sending

namespace Agree

variable {s : Sending} {r : Receiving}

/-- The envelope of the next flush is new to the receiver. -/
theorem isNewer_building (h : Agree s r) (near : ∀ w ∈ r.watermark, Near s.mail.length w) :
    s.building.envelope.order.isNewer r.inbound.watermark = true := by
  rw [h.sound.building.order, h.mark, isNewer_numberAt (p := s.building.position) near,
    decide_eq_true_eq]
  rintro ⟨w, is_mark, le⟩
  have := h.sent w is_mark
  simp only [Sending.building] at le
  omega

/-- Whoever knows the newest envelope of a sender with no command queued was handed everything. -/
theorem delivered_eq_pushed (h : Agree s r) (guaranteed : s.outbound.guaranteed = [])
    (known : ∀ f ∈ s.formed, Reached r.watermark f.position) : r.delivered = s.pushed := by
  have all : Formed.reachedBy r.watermark s.formed = s.formed :=
    List.filter_eq_self.2 fun f hf => by simpa using known f hf
  rw [h.delivered, all, ← h.sound.conserved, guaranteed, List.append_nil]

/-- With an empty history every batch is known to the receiver. -/
theorem known_of_history_nil (h : Agree s r) (history : s.outbound.history = []) :
    ∀ f ∈ s.formed, Reached r.watermark f.position := by
  have all : s.formed.length = s.released.length := by
    have := congrArg List.length h.sound.parted
    simpa [history] using this.symm
  have known := h.released
  rwa [← all, List.take_length] at known

end Agree

namespace Party

variable {η σ : Type}

/-- Takes the envelope that the next flush of the other party sends, if one is due. -/
def hearFrom (q : Party η σ) (b : Application η σ) (p : Party η σ) : Party η σ :=
  match p.sending.next? with
  | some m => q.take b m
  | none => q

theorem hearFrom_of_isDue {p : Party η σ} (due : p.sending.outbound.isDue = true) (q : Party η σ)
    (b : Application η σ) : q.hearFrom b p = q.take b p.sending.building := by
  rw [hearFrom, Sending.next?_of_isDue due]

theorem hearFrom_of_not_isDue {p : Party η σ} (due : p.sending.outbound.isDue = false)
    (q : Party η σ) (b : Application η σ) : q.hearFrom b p = q ∧ p.flush = p := by
  rw [hearFrom, Sending.next?_of_not_isDue due, flush, Sending.flush_of_not_isDue due]
  exact ⟨rfl, rfl⟩

/-- Either nothing is due, or the envelope that is being built is taken. -/
theorem hearFrom_cases {motive : Party η σ → Prop} (q : Party η σ) (b : Application η σ)
    (p : Party η σ) (same : motive q) (taken : motive (q.take b p.sending.building)) :
    motive (q.hearFrom b p) := by
  by_cases due : p.sending.outbound.isDue
  · rwa [hearFrom_of_isDue due]
  · rwa [(hearFrom_of_not_isDue (by simpa using due) q b).1]

theorem receiving_take (p : Party η σ) (a : Application η σ) (m : Mail) :
    (p.take a m).receiving = p.receiving.take m := by
  rw [take_eq]

section
variable {K : Sending → Prop}

theorem perform_lasting (lasting : Lasting K) (a : Application η σ) (call : Call (Option η))
    {p : Party η σ} (h : K p.sending) : K ((receiver a).perform call p).sending :=
  perform_induct a call (motive := fun p => K p.sending) h (fun _ _ h => h)
    (fun _ c _ h => lasting.push _ c h) (fun _ ack _ h => lasting.push _ ack h)
    (fun _ _ order _ _ h => lasting.confirm _ order h)

theorem take_lasting (lasting : Lasting K) (a : Application η σ) {p : Party η σ} (m : Mail)
    (h : K p.sending) :
    K (p.take a m).sending := by
  rw [take_eq]
  exact Receiver.performAll_induct (receiver a) (motive := fun p => K p.sending) h
    fun call _ p h => perform_lasting lasting a call h

theorem mail_take (p : Party η σ) (a : Application η σ) (m : Mail) :
    (p.take a m).sending.mail = p.sending.mail :=
  take_lasting (Sending.lasting_mail _) a m rfl

theorem mail_hearFrom (q : Party η σ) (b : Application η σ) (p : Party η σ) :
    (q.hearFrom b p).sending.mail = q.sending.mail :=
  hearFrom_cases (motive := fun q' => q'.sending.mail = q.sending.mail) q b p rfl (mail_take q b _)

/-- What one call of the envelope brings about, the envelope does. -/
theorem take_reaches (before : Sending → Prop) (a : Application η σ) {p : Party η σ} {m : Mail}
    {call : Call (Option η)} (made : call ∈ p.callsOf a m) (start : before p.sending)
    (kept : Lasting before)
    (reached : ∀ p, before p.sending → K ((receiver a).perform call p).sending)
    (stays : Lasting K) :
    K (p.take a m).sending := by
  rw [take_eq]
  exact (receiver a).performAll_reaches (fun p => before p.sending) (fun p => K p.sending) made
    start (fun c p h => perform_lasting kept a c h) reached
    (fun c p h => perform_lasting stays a c h)

end

/-- An envelope with batches that is new leaves its acknowledgement waiting. -/
theorem take_waits (a : Application η σ) {p : Party η σ} {m : Mail}
    (newer : m.envelope.order.isNewer p.receiving.inbound.watermark = true)
    (asks : m.envelope.asksForAck = true) :
    .ack m.envelope.order ∈ (p.take a m).sending.outbound.unreliable ∧
      (p.take a m).sending.outbound.asked = true := by
  have made : .acknowledge (.ack m.envelope.order) ∈ p.callsOf a m := by
    simp [callsOf, newer, Envelope.calls, asks]
  refine take_reaches (fun _ => True) a made trivial ⟨fun _ _ h => h, fun _ _ h => h⟩ ?_
    (Sending.lasting_waits _)
  intro p' _
  simp [receiver, Sending.push, Outbound.push]

/-- An acknowledgement in a new envelope empties a history that it covers. -/
theorem take_releases (a : Application η σ) {p : Party η σ} {m : Mail} {order : OrderNumber}
    (newer : m.envelope.order.isNewer p.receiving.inbound.watermark = true)
    (carried : .ack order ∈ m.envelope.unreliable)
    (old : ∀ b ∈ p.sending.outbound.history, b.id.after order = false) :
    (p.take a m).sending.outbound.history = [] := by
  have made : .unreliable none (.ack order) ∈ p.callsOf a m := by
    rw [callsOf, if_pos newer, Envelope.calls]
    refine List.mem_append_right _ (List.mem_flatMap.2 ⟨_, carried, ?_⟩)
    simp [receiver]
  exact take_reaches _ a made old Sending.lasting_history
    (fun p' old => Sending.history_confirm old) Sending.lasting_history_nil

section
variable {p q : Party η σ}

theorem paired_trip (h : Paired p q) (b : Application η σ)
    (few : p.flush.sending.mail.length ≤ halfRange) (fewBack : q.sending.mail.length ≤ halfRange) :
    Paired p.flush (q.hearFrom b p) := by
  have flushed := paired_flush h
  by_cases due : p.sending.outbound.isDue
  · rw [hearFrom_of_isDue due]
    have sent : p.sending.building ∈ p.flush.sending.mail := by
      rw [flush, Sending.flush_of_isDue due]
      exact List.mem_append_right _ List.mem_cons_self
    exact (paired_take flushed.symm b sent (flushed.1.compares few sent) fewBack).symm
  · have idle : p.sending.outbound.isDue = false := by simpa using due
    rw [(hearFrom_of_not_isDue idle q b).1]
    exact flushed

/-- After a trip the receiver has come as far as the sender. -/
theorem watermark_trip (h : Paired p q) (b : Application η σ) (near : ∀ w ∈ q.receiving.watermark,
    Near p.sending.mail.length w) (due : p.sending.outbound.isDue = true) :
    (q.hearFrom b p).receiving.watermark = some p.sending.mail.length := by
  rw [hearFrom_of_isDue due, receiving_take,
    Receiving.take_of_isNewer (h.1.agree.isNewer_building near)]
  rfl

/-- After a trip the receiver has been handed everything that was pushed before. -/
theorem delivered_trip (h : Paired p q) (b : Application η σ)
    (few : p.sending.mail.length < halfRange) (fewBack : q.sending.mail.length ≤ halfRange) :
    (q.hearFrom b p).receiving.delivered = p.sending.pushed := by
  have grown := (p.sending.mail_length_flush).2
  have trip := (paired_trip h b (Nat.le_trans grown few) fewBack).1.agree
  have guaranteed : p.flush.sending.outbound.guaranteed = [] := h.1.agree.sound.guaranteed_flush
  have near : ∀ w ∈ q.receiving.watermark, Near p.sending.mail.length w := by
    intro w hw
    have := h.1.agree.sent w hw
    constructor <;> omega
  by_cases due : p.sending.outbound.isDue
  · have known : ∀ f ∈ p.flush.sending.formed,
        Reached (q.hearFrom b p).receiving.watermark f.position := by
      intro f hf
      rw [flush, Sending.flush_of_isDue due] at hf
      exact ⟨_, watermark_trip h b near due, h.1.agree.sound.forall_le_forming f hf⟩
    rw [trip.delivered_eq_pushed guaranteed known, flush, Sending.flush_of_isDue due]
  · have idle : p.sending.outbound.isDue = false := by simpa using due
    have history : p.sending.outbound.history = [] := by
      simp only [Outbound.isDue, Bool.or_eq_true, not_or] at due
      simpa using due.2
    rw [(hearFrom_of_not_isDue idle q b).2] at trip guaranteed
    exact trip.delivered_eq_pushed guaranteed (trip.known_of_history_nil history)

/-- Once the answer to a flush has been taken, the history is empty. -/
theorem history_answered (h : Paired p q) (a b : Application η σ)
    (few : p.sending.mail.length < halfRange) (fewBack : q.sending.mail.length ≤ halfRange)
    (near : ∀ w ∈ p.receiving.watermark, Near q.sending.mail.length w) :
    (p.flush.hearFrom a (q.hearFrom b p)).sending.outbound.history = [] := by
  have grown := (p.sending.mail_length_flush).2
  have paired := paired_trip h b (Nat.le_trans grown few) fewBack
  by_cases empty : p.flush.sending.outbound.history = []
  · exact hearFrom_cases (motive := fun p => p.sending.outbound.history = []) p.flush a _ empty
      (take_lasting Sending.lasting_history_nil a _ empty)
  · obtain ⟨due, asks⟩ := Sending.isDue_of_history_flush empty
    have newer : p.sending.building.envelope.order.isNewer q.receiving.inbound.watermark =
        true := by
      apply h.1.agree.isNewer_building
      intro w hw
      have := h.1.agree.sent w hw
      constructor <;> omega
    obtain ⟨waits, asked⟩ := take_waits b newer asks
    rw [← hearFrom_of_isDue due] at waits asked
    have answers : (q.hearFrom b p).sending.outbound.isDue = true := by simp [Outbound.isDue, asked]
    rw [hearFrom_of_isDue answers]
    refine take_releases a (paired.2.agree.isNewer_building ?_) waits ?_
    · intro w hw
      rw [mail_hearFrom]
      exact near w hw
    · intro c hc
      rw [h.1.agree.sound.building.order]
      obtain ⟨f, hf, rfl⟩ : ∃ f ∈ p.flush.sending.formed, f.batch = c := by
        have listed : c ∈ p.flush.sending.formed.map Formed.batch := by
          rw [← paired.1.agree.sound.parted]
          exact List.mem_append_right _ hc
        exact List.mem_map.1 listed
      rw [flush, Sending.flush_of_isDue due] at hf
      have le := h.1.agree.sound.forall_le_forming f hf
      have close : Near f.position p.sending.mail.length := by constructor <;> omega
      rw [Formed.batch, Sending.building, after_numberAt close]
      simpa using le

/-- A sender that has flushed less often than half the circle has positions stays near to who hears
from it. -/
theorem near_trip (h : Paired p q) (b : Application η σ) (few : p.sending.mail.length < halfRange) :
    ∀ w ∈ (q.hearFrom b p).receiving.watermark, Near p.flush.sending.mail.length w := by
  intro w hw
  by_cases due : p.sending.outbound.isDue
  · have near : ∀ w ∈ q.receiving.watermark, Near p.sending.mail.length w := by
      intro w hw
      have := h.1.agree.sent w hw
      constructor <;> omega
    have grown := (p.sending.mail_length_flush).2
    have longer := (p.sending.mail_length_flush).1
    rw [watermark_trip h b near due] at hw
    cases hw
    have wide : 1 < halfRange := by decide
    constructor <;> simp only [flush] <;> omega
  · obtain ⟨same, idle⟩ := hearFrom_of_not_isDue (p := p) (by simpa using due) q b
    rw [same] at hw
    rw [idle]
    have := h.1.agree.sent w hw
    constructor <;> omega

/-- Acknowledgements and confirmations queue nothing that is guaranteed. -/
theorem guaranteed_hearFrom (b : Application η σ) (guaranteed : q.sending.outbound.guaranteed = [])
    (silent : (q.hearFrom b p).spoken = q.spoken) :
    (q.hearFrom b p).sending.outbound.guaranteed = [] := by
  refine hearFrom_cases
    (motive := fun q' => q'.spoken = q.spoken → q'.sending.outbound.guaranteed = []) q b p
    (fun _ => guaranteed) ?_ silent
  refine (take_unspoken (K := fun s => s.outbound.guaranteed = []) q b p.sending.building guaranteed
    ?_ ?_).2
  · intro _ s h
    simp [Sending.push, Outbound.push, h]
  · exact fun s order h => h

/-- An envelope without batches asks for nothing. -/
theorem asked_hearFrom (b : Application η σ) (guaranteed : p.sending.outbound.guaranteed = [])
    (history : p.sending.outbound.history = []) (asked : q.sending.outbound.asked = false)
    (silent : (q.hearFrom b p).spoken = q.spoken) :
    (q.hearFrom b p).sending.outbound.asked = false := by
  refine hearFrom_cases
    (motive := fun q' => q'.spoken = q.spoken → q'.sending.outbound.asked = false) q b p
    (fun _ => asked) ?_ silent
  refine (take_unspoken (K := fun s => s.outbound.asked = false) q b p.sending.building asked
    ?_ ?_).2
  · intro asks
    simp [Sending.building, Outbound.envelope, Outbound.extendedHistory, Envelope.asksForAck,
      guaranteed, history] at asks
  · exact fun s order h => h

theorem handedTo_hearFrom [DecidableEq η] (b : Application η σ) {h : η} {n : Nat}
    (registered : (b.handlers q.app).count h = n)
    (handed : handedTo (some h) q.calls = q.receiving.delivered.flatMap (List.replicate n)) :
    handedTo (some h) (q.hearFrom b p).calls
      = (q.hearFrom b p).receiving.delivered.flatMap (List.replicate n) :=
  hearFrom_cases
    (motive := fun q' =>
      handedTo (some h) q'.calls = q'.receiving.delivered.flatMap (List.replicate n)) q b p
    handed (handedTo_take q b p.sending.building registered handed)

end

end Party
end DatagramSession
