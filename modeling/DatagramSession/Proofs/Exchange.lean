import DatagramSession.Proofs.Agreement
/-!
# What passes between two parties

`Sending.Does` lists what may be done to the sending of a party that may be taking an envelope
meanwhile.  `Paired` says that the sending of each of two parties agrees with what the other one has
received and that every acknowledgement under way is true.  It survives whatever either party does
(`Paired.does`) and the taking of any envelope of the other party (`Paired.hears`).
-/
namespace DatagramSession

/-- What may be done to a sending; `heard` is the envelope that is being taken, if any. -/
inductive Sending.Does (heard : Option Envelope) : Sending → Sending → Prop where
  | rest (s : Sending) : Does heard s s
  | push {s s' : Sending} (c : Command) (message : c.confirmed? = none) (before : Does heard s s') :
      Does heard s (s'.push c)
  | keepAlive {s s' : Sending} (before : Does heard s s') : Does heard s s'.keepAlive
  | flush {s s' : Sending} (before : Does heard s s') : Does heard s s'.flush
  | acknowledge {s s' : Sending} {e : Envelope} (taken : e ∈ heard) (before : Does heard s s') :
      Does heard s (s'.push (.ack e.order))
  | confirm {s s' : Sending} {e : Envelope} {c : Command} {order : OrderNumber} (taken : e ∈ heard)
      (carried : c ∈ e.unreliable) (confirms : c.confirmed? = some order)
      (before : Does heard s s') :
      Does heard s (s'.confirm order)

namespace Sending

variable {heard : Option Envelope} {s s' s'' : Sending}

theorem Does.trans (first : Does heard s s') (second : Does heard s' s'') : Does heard s s'' := by
  induction second with
  | rest => exact first
  | push c message _ ih => exact ih.push c message
  | keepAlive _ ih => exact ih.keepAlive
  | flush _ ih => exact ih.flush
  | acknowledge taken _ ih => exact ih.acknowledge taken
  | confirm taken carried confirms _ ih => exact ih.confirm taken carried confirms

theorem mail_length_flush (s : Sending) : s.mail.length ≤ s.flush.mail.length ∧
    s.flush.mail.length ≤ s.mail.length + 1 := by
  by_cases due : s.outbound.isDue
  · rw [flush_of_isDue due]
    simp
  · rw [flush_of_not_isDue (by simpa using due)]
    omega

theorem Does.sound (does : Does heard s s') (h : s.Sound) : s'.Sound := by
  induction does with
  | rest => exact h
  | push c _ _ ih => exact ih.push c
  | keepAlive _ ih => exact ih.keepAlive
  | flush _ ih => exact ih.flush
  | acknowledge _ _ ih => exact ih.push _
  | confirm _ _ _ _ ih => exact ih.confirm _

end Sending

/-- An acknowledgement of what the watermark has reached; anything else says nothing about it. -/
def Truthful (r : Receiving) (c : Command) : Prop :=
  ∀ order ∈ c.confirmed?, ∃ p, order = numberAt p ∧ Reached r.watermark p

theorem truthful_of_message {r : Receiving} {c : Command} (h : c.confirmed? = none) :
    Truthful r c := by
  simp [Truthful, h]

/-- One direction of a session: what is sent, what was received of it, and the acknowledgements on
their way back. -/
structure Linked (s : Sending) (r : Receiving) (back : Sending) : Prop where
  agree : Agree s r
  queued : ∀ c ∈ back.outbound.unreliable, Truthful r c
  posted : ∀ m ∈ back.mail, ∀ c ∈ m.envelope.unreliable, Truthful r c

namespace Linked

variable {s back : Sending} {r : Receiving}

theorem start : Linked {} {} {} :=
  ⟨agree_start, by simp, by simp⟩

/-- Counters of a sender that has flushed at most `halfRange` times are near. -/
theorem near_unconfirmed (h : Linked s r back) (few : s.mail.length ≤ halfRange) {p : Nat}
    (reached : Reached r.watermark p) : ∀ b ∈ s.unconfirmed, Near b p := by
  intro b hb
  obtain ⟨w, is_mark, le⟩ := reached
  have := h.agree.sent w is_mark
  have := h.agree.counter_lt.2 b hb
  constructor <;> omega

theorem compares (h : Linked s r back) (few : s.mail.length ≤ halfRange) {m : Mail}
    (sent : m ∈ s.mail) :
    r.Compares m := by
  intro w hw
  have := h.agree.sent w hw
  obtain ⟨position, batches⟩ := h.agree.counter_lt.1 m sent
  refine ⟨by constructor <;> omega, fun b hb => ?_⟩
  have := batches b hb
  constructor <;> omega

/-! ## What a party does to its own sending -/

theorem push (h : Linked s r back) (c : Command) : Linked (s.push c) r back :=
  ⟨h.agree.push c, h.queued, h.posted⟩

theorem keepAlive (h : Linked s r back) : Linked s.keepAlive r back :=
  ⟨h.agree.keepAlive, h.queued, h.posted⟩

theorem flush (h : Linked s r back) : Linked s.flush r back :=
  ⟨h.agree.flush, h.queued, h.posted⟩

theorem confirm (h : Linked s r back) (few : s.mail.length ≤ halfRange) {c : Command}
    (truth : Truthful r c) {order : OrderNumber} (confirms : c.confirmed? = some order) :
    Linked (s.confirm order) r back := by
  obtain ⟨p, rfl, reached⟩ := truth order confirms
  exact ⟨h.agree.confirm reached (h.near_unconfirmed few reached), h.queued, h.posted⟩

/-! ## What that means for the way back -/

theorem push_back (h : Linked s r back) {c : Command} (truth : Truthful r c) :
    Linked s r (back.push c) := by
  refine ⟨h.agree, ?_, h.posted⟩
  intro d hd
  by_cases guaranteed : c.isGuaranteed
  · exact h.queued d (by simpa [Sending.push, Outbound.push, guaranteed] using hd)
  · simp only [Sending.push, Outbound.push, guaranteed] at hd
    rcases List.mem_append.1 hd with old | new
    · exact h.queued d old
    · rw [List.mem_singleton.1 new]
      exact truth

theorem keepAlive_back (h : Linked s r back) : Linked s r back.keepAlive :=
  ⟨h.agree, h.queued, h.posted⟩

theorem flush_back (h : Linked s r back) : Linked s r back.flush := by
  by_cases due : back.outbound.isDue
  · rw [Sending.flush_of_isDue due]
    refine ⟨h.agree, by simp [Outbound.flushed], ?_⟩
    intro m hm
    rcases List.mem_append.1 hm with old | new
    · exact h.posted m old
    · rw [List.mem_singleton.1 new]
      exact h.queued
  · rw [Sending.flush_of_not_isDue (by simpa using due)]
    exact h

theorem confirm_back (h : Linked s r back) (order : OrderNumber) :
    Linked s r (back.confirm order) :=
  ⟨h.agree, h.queued, h.posted⟩

/-- The other party takes an envelope. -/
theorem take (h : Linked s r back) {m : Mail} (sent : m ∈ s.mail) (near : r.Compares m) :
    Linked s (r.take m) back := by
  have onward {c : Command} (truth : Truthful r c) : Truthful (r.take m) c := by
    intro order confirms
    obtain ⟨p, same, reached⟩ := truth order confirms
    exact ⟨p, same, h.agree.reached_take sent near reached⟩
  exact ⟨h.agree.take sent near, fun c hc => onward (h.queued c hc),
    fun n hn c hc => onward (h.posted n hn c hc)⟩

/-- The acknowledgement of an envelope that has just been taken is true. -/
theorem truthful_ack (h : Linked s r back) {m : Mail} (sent : m ∈ s.mail)
    (newer : m.envelope.order.isNewer r.inbound.watermark = true) :
    Truthful (r.take m) (.ack m.envelope.order) := by
  obtain ⟨_, _, _, carries⟩ := h.agree.sound.posted m sent
  intro order confirms
  cases confirms
  refine ⟨m.position, carries.order, ?_⟩
  rw [Receiving.take_of_isNewer newer]
  exact ⟨m.position, rfl, Nat.le_refl _⟩

/-- A party's links to the other one hold whatever it does, if the acknowledgements that it hears
are true and those that it gives will be. -/
theorem does {heard : Option Envelope} {s s' t : Sending} {r u : Receiving}
    (does : Sending.Does heard s s') (out : Linked s r t) (back : Linked t u s)
    (truth : ∀ e ∈ heard, (∀ c ∈ e.unreliable, Truthful r c) ∧ Truthful u (.ack e.order))
    (few : s'.mail.length ≤ halfRange) : Linked s' r t ∧ Linked t u s' := by
  induction does with
  | rest => exact ⟨out, back⟩
  | push c message _ ih =>
    exact ⟨(ih few).1.push c, (ih few).2.push_back (truthful_of_message message)⟩
  | keepAlive _ ih => exact ⟨(ih few).1.keepAlive, (ih few).2.keepAlive_back⟩
  | @flush s' _ ih =>
    have fewer := Nat.le_trans (s'.mail_length_flush).1 few
    exact ⟨(ih fewer).1.flush, (ih fewer).2.flush_back⟩
  | acknowledge taken _ ih => exact ⟨(ih few).1.push _, (ih few).2.push_back (truth _ taken).2⟩
  | confirm taken carried confirms _ ih =>
    have released := (ih few).1.confirm few ((truth _ taken).1 _ carried) confirms
    exact ⟨released, (ih few).2.confirm_back _⟩

end Linked

/-- One party's half of a session: what it has sent and what it has received. -/
structure Half where
  sending : Sending := {}
  receiving : Receiving := {}

/-- Each of two halves is linked to the other. -/
def Paired (t u : Half) : Prop :=
  Linked t.sending u.receiving u.sending ∧ Linked u.sending t.receiving t.sending

namespace Paired

variable {t u : Half} {s : Sending}

theorem start : Paired {} {} :=
  ⟨Linked.start, Linked.start⟩

theorem symm (h : Paired t u) : Paired u t :=
  ⟨h.2, h.1⟩

/-- A party does anything but take an envelope. -/
theorem does (h : Paired t u) (does : Sending.Does none t.sending s)
    (few : s.mail.length ≤ halfRange) :
    Paired ⟨s, t.receiving⟩ u :=
  Linked.does does h.1 h.2 nofun few

/-- A party takes an envelope of the other one that is new to it. -/
theorem hears (h : Paired t u) {m : Mail} (sent : m ∈ u.sending.mail)
    (near : t.receiving.Compares m)
    (newer : m.envelope.order.isNewer t.receiving.inbound.watermark = true)
    (does : Sending.Does (some m.envelope) t.sending s) (few : s.mail.length ≤ halfRange) :
    Paired ⟨s, t.receiving.take m⟩ u := by
  refine Linked.does does h.1 (h.2.take sent near) ?_ few
  rintro e ⟨⟩
  exact ⟨h.1.posted m sent, h.2.truthful_ack sent newer⟩

/-- The same while the other one has not sent too much. -/
theorem takes (h : Paired t u) (fewBack : u.sending.mail.length ≤ halfRange) {m : Mail}
    (sent : m ∈ u.sending.mail)
    (newer : m.envelope.order.isNewer t.receiving.inbound.watermark = true)
    (does : Sending.Does (some m.envelope) t.sending s) (few : s.mail.length ≤ halfRange) :
    Paired ⟨s, t.receiving.take m⟩ u :=
  h.hears sent (h.2.compares fewBack sent) newer does few

end Paired
end DatagramSession
