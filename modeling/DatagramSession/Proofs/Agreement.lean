import DatagramSession.Proofs.Calls
import DatagramSession.Proofs.Sending
import Mathlib.Data.List.Infix
import Mathlib.Data.List.TakeWhile
/-!
# What a receiver knows of a sender

`Receiving` is an inbound state beside its past.  `Agree` relates it to the sender whose envelopes
it takes: what was handed out are the batches up to the watermark, and what confirmations released
lies below the watermark.  Taking any envelope that was ever built keeps the relation
(`Agree.take`), and so does any confirmation of a number that the watermark has reached
(`Agree.confirm`), provided the numbers that are compared stand for near positions.
-/
namespace DatagramSession

/-- An inbound state and its past. -/
structure Receiving where
  inbound : Inbound := {}
  /-- The position of the newest envelope that was taken. -/
  watermark : Option Nat := none
  /-- The guaranteed commands that were new on arrival, in the order in which they were handed
  out. -/
  delivered : List Command := []
  /-- The envelopes that were acknowledged. -/
  acknowledged : List Mail := []

namespace Receiving

/-- Notes what became of an envelope. -/
def note (r : Receiving) (m : Mail) (outcome : EnvelopeOutcome) (inbound : Inbound) : Receiving :=
  match outcome with
  | .stale => { r with inbound }
  | .accepted _ acked => {
      inbound
      watermark := some m.position
      delivered := r.delivered ++ m.envelope.freshCommands r.inbound.watermark
      acknowledged := if acked then r.acknowledged ++ [m] else r.acknowledged }

/-- Takes an envelope. -/
def take (r : Receiving) (m : Mail) : Receiving :=
  r.note m (r.inbound.take m.envelope).1 (r.inbound.take m.envelope).2

theorem take_of_isNewer {r : Receiving} {m : Mail}
    (h : m.envelope.order.isNewer r.inbound.watermark = true) :
    r.take m = {
      inbound := ⟨some m.envelope.order⟩
      watermark := some m.position
      delivered := r.delivered ++ m.envelope.freshCommands r.inbound.watermark
      acknowledged := if m.envelope.asksForAck then r.acknowledged ++ [m]
        else r.acknowledged } := by
  simp [take, note, Inbound.take, h]

theorem take_of_not_isNewer {r : Receiving} {m : Mail}
    (h : m.envelope.order.isNewer r.inbound.watermark = false) :
    r.take m = r := by
  simp [take, note, Inbound.take, h]

end Receiving

/-- The numbers compared when an envelope arrives stand for near positions. -/
def Receiving.Compares (r : Receiving) (m : Mail) : Prop :=
  ∀ w ∈ r.watermark, Near m.position w ∧ ∀ b ∈ m.batches, Near b w

/-- The batches that lie below a watermark. -/
def Formed.reachedBy (watermark : Option Nat) (formed : List Formed) : List Formed :=
  formed.filter fun f => decide (Reached watermark f.position)

/-- A receiver that has taken none but the envelopes of this sender, which was given none but its
acknowledgements. -/
structure Agree (s : Sending) (r : Receiving) : Prop where
  sound : s.Sound
  mark : r.inbound.watermark = r.watermark.map numberAt
  sent : ∀ w ∈ r.watermark, w < s.mail.length
  delivered : r.delivered = (Formed.reachedBy r.watermark s.formed).flatMap Formed.commands
  released : ∀ f ∈ s.formed.take s.released.length, Reached r.watermark f.position
  acknowledged : ∀ m ∈ r.acknowledged, m ∈ s.mail ∧ Reached r.watermark m.position

theorem agree_start : Agree {} {} where
  sound := Sending.sound_start
  mark := rfl
  sent := by simp
  delivered := rfl
  released := by simp
  acknowledged := by simp

namespace Formed

theorem reachedBy_prefix {formed : List Formed} (ordered : Ordered formed)
    (watermark : Option Nat) :
    reachedBy watermark formed <+: formed :=
  filter_prefix ordered fun a b earlier reached => by
    simp only [decide_eq_true_eq] at reached ⊢
    obtain ⟨w, is_mark, le⟩ := reached
    exact ⟨w, is_mark, by omega⟩

theorem reachedBy_append_of_not {formed later : List Formed} {watermark : Option Nat}
    (h : ∀ f ∈ later, ¬ Reached watermark f.position) :
    reachedBy watermark (formed ++ later) = reachedBy watermark formed := by
  have dropped : reachedBy watermark later = [] := List.filter_eq_nil_iff.2 fun f hf => by
    simpa using h f hf
  rw [reachedBy, List.filter_append]
  change reachedBy watermark formed ++ reachedBy watermark later = _
  rw [dropped, List.append_nil]

theorem reachedBy_some (p : Nat) (formed : List Formed) :
    reachedBy (some p) formed = upTo formed p := by
  simp [reachedBy, upTo, Reached]

/-- The batches up to a position beyond the watermark are those that it has reached, then those that
are new. -/
theorem reachedBy_append_new {formed : List Formed} (ordered : Ordered formed)
    {watermark : Option Nat} {p gone : Nat} (beyond : ¬ Reached watermark p)
    (old : ∀ f ∈ (upTo formed p).take gone, Reached watermark f.position) :
    reachedBy watermark formed
      ++ ((upTo formed p).drop gone).filter (fun f => decide (¬ Reached watermark f.position)) =
        upTo formed p := by
  have below : reachedBy watermark formed = reachedBy watermark (upTo formed p) := by
    rw [reachedBy, reachedBy, upTo, List.filter_filter]
    apply List.filter_congr
    intro f _
    by_cases reached : Reached watermark f.position
    · obtain ⟨w, is_mark, le⟩ := reached
      have above : ¬ p ≤ w := fun le => beyond ⟨w, is_mark, le⟩
      have within : f.position ≤ p := by omega
      simp [within]
    · simp [reached]
  have first : ((upTo formed p).take gone).filter
      (fun f => decide (¬ Reached watermark f.position)) = [] :=
    List.filter_eq_nil_iff.2 fun f hf => by simpa using old f hf
  have rest : ((upTo formed p).drop gone).filter (fun f => decide (¬ Reached watermark f.position))
      = (upTo formed p).filter (fun f => decide (¬ Reached watermark f.position)) := by
    conv_rhs => rw [← List.take_append_drop gone (upTo formed p), List.filter_append, first,
      List.nil_append]
  have sorted : Ordered (upTo formed p) := List.Pairwise.filter _ ordered
  have cut := filter_append_filter_not sorted (q := fun f => decide (Reached watermark f.position))
    fun a b earlier reached => by
      simp only [decide_eq_true_eq] at reached ⊢
      obtain ⟨w, is_mark, le⟩ := reached
      exact ⟨w, is_mark, by omega⟩
  rw [below, rest]
  simpa only [reachedBy, decide_not] using cut

end Formed

namespace Agree

variable {s : Sending} {r : Receiving}

theorem push (h : Agree s r) (c : Command) : Agree (s.push c) r :=
  ⟨h.sound.push c, h.mark, h.sent, h.delivered, h.released, h.acknowledged⟩

theorem keepAlive (h : Agree s r) : Agree s.keepAlive r :=
  ⟨h.sound.keepAlive, h.mark, h.sent, h.delivered, h.released, h.acknowledged⟩

theorem flush (h : Agree s r) : Agree s.flush r := by
  by_cases due : s.outbound.isDue
  · have sound := h.sound.flush
    rw [Sending.flush_of_isDue due] at sound ⊢
    have unreached : ∀ f ∈ s.forming, ¬ Reached r.watermark f.position := by
      rintro f hf ⟨w, is_mark, le⟩
      have := h.sent w is_mark
      rw [Sending.forming_position hf] at le
      omega
    refine ⟨sound, h.mark, ?_, ?_, ?_, ?_⟩
    · intro w hw
      have := h.sent w hw
      simp only [List.length_append, List.length_singleton]
      omega
    · rw [Formed.reachedBy_append_of_not unreached]
      exact h.delivered
    · have enough : s.released.length ≤ s.formed.length := by
        have := congrArg List.length h.sound.parted
        simp only [List.length_append, List.length_map] at this
        omega
      rw [List.take_append_of_le_length enough]
      exact h.released
    · intro m hm
      exact ⟨List.mem_append_left _ (h.acknowledged m hm).1, (h.acknowledged m hm).2⟩
  · rw [Sending.flush_of_not_isDue (by simpa using due)]
    exact h

/-- The first batches, which an envelope leaves out, are known to the receiver. -/
theorem reached_of_gone (h : Agree s r) {p gone : Nat} (le : gone ≤ s.released.length) :
    ∀ f ∈ (Formed.upTo s.formed p).take gone, Reached r.watermark f.position := by
  intro f hf
  have early : f ∈ s.formed.take gone :=
    (List.IsPrefix.take (Formed.upTo_prefix h.sound.ordered p) gone).subset hf
  exact h.released f ((List.take_prefix_take_left le).subset early)

theorem isNewer_iff (h : Agree s r) {m : Mail} (sent : m ∈ s.mail) (near : r.Compares m) :
    m.envelope.order.isNewer r.inbound.watermark = decide (¬ Reached r.watermark m.position) := by
  obtain ⟨_, gone, _, carries⟩ := h.sound.posted m sent
  rw [carries.order, h.mark]
  exact isNewer_numberAt fun w hw => (near w hw).1

/-- The new commands of an envelope are those of the batches beyond the watermark. -/
theorem freshCommands_eq (h : Agree s r) {m : Mail} {gone : Nat} (carries : m.Carries s.formed gone)
    (near : r.Compares m) :
    m.envelope.freshCommands r.inbound.watermark
      = (((Formed.upTo s.formed m.position).drop gone).filter
          (fun f => decide (¬ Reached r.watermark f.position))).flatMap Formed.commands := by
  rw [Envelope.freshCommands, carries.guaranteed, h.mark, List.filter_map, List.flatMap_map]
  congr 1
  apply List.filter_congr
  intro f hf
  apply isNewer_numberAt
  intro w hw
  apply (near w hw).2
  rw [carries.batches]
  exact List.mem_map_of_mem hf

/-- A watermark never moves back. -/
theorem reached_take (h : Agree s r) {m : Mail} (sent : m ∈ s.mail) (near : r.Compares m) {p : Nat}
    (below : Reached r.watermark p) : Reached (r.take m).watermark p := by
  have newer := h.isNewer_iff sent near
  by_cases reached : Reached r.watermark m.position
  · rwa [Receiving.take_of_not_isNewer (by simpa [reached] using newer)]
  · rw [Receiving.take_of_isNewer (by simpa [reached] using newer)]
    obtain ⟨w, is_mark, le⟩ := below
    have above : ¬ m.position ≤ w := fun le => reached ⟨w, is_mark, le⟩
    exact ⟨m.position, rfl, by omega⟩

theorem take (h : Agree s r) {m : Mail} (sent : m ∈ s.mail) (near : r.Compares m) :
    Agree s (r.take m) := by
  have newer := h.isNewer_iff sent near
  have onward := fun p => h.reached_take sent near (p := p)
  by_cases reached : Reached r.watermark m.position
  · rw [Receiving.take_of_not_isNewer (by simpa [reached] using newer)]
    exact h
  · rw [Receiving.take_of_isNewer (by simpa [reached] using newer)] at onward ⊢
    obtain ⟨before, gone, le, carries⟩ := h.sound.posted m sent
    refine ⟨h.sound, ?_, ?_, ?_, ?_, ?_⟩
    · simp [carries.order]
    · intro w hw
      rw [← Option.some.inj hw]
      exact before
    · rw [h.delivered, h.freshCommands_eq carries near, ← List.flatMap_append,
        Formed.reachedBy_append_new h.sound.ordered reached (h.reached_of_gone le),
        Formed.reachedBy_some]
    · intro f hf
      exact onward _ (h.released f hf)
    · intro n hn
      have known : n ∈ r.acknowledged ∨ n = m := by
        split at hn
        · simpa using hn
        · exact Or.inl hn
      rcases known with old | rfl
      · exact ⟨(h.acknowledged n old).1, onward _ (h.acknowledged n old).2⟩
      · exact ⟨sent, n.position, rfl, Nat.le_refl _⟩

/-- A confirmation releases the batches up to its position. -/
theorem released_eq (h : Agree s r) {p : Nat} (near : ∀ b ∈ s.unconfirmed, Near b p) :
    Outbound.released (numberAt p) s.outbound.history
      = ((s.formed.drop s.released.length).takeWhile (·.position ≤ p)).map Formed.batch := by
  rw [Outbound.released, h.sound.history, List.takeWhile_map]
  congr 1
  have same : ∀ l : List Formed, (∀ f ∈ l, Near f.position p) →
      l.takeWhile ((fun b => !b.id.after (numberAt p)) ∘ Formed.batch) =
      l.takeWhile (·.position ≤ p) := by
    intro l near
    induction l with
    | nil => rfl
    | cons f rest ih =>
      have agrees : (!f.batch.id.after (numberAt p)) = decide (f.position ≤ p) := by
        simp only [Formed.batch, after_numberAt (near f List.mem_cons_self)]
        by_cases le : f.position ≤ p <;> simp [le]; omega
      simp only [List.takeWhile_cons, Function.comp_apply, agrees,
        ih fun g hg => near g (List.mem_cons_of_mem _ hg)]
  exact same _ fun f hf => near _ (List.mem_map_of_mem hf)

theorem confirm (h : Agree s r) {p : Nat} (reached : Reached r.watermark p)
    (near : ∀ b ∈ s.unconfirmed, Near b p) : Agree (s.confirm (numberAt p)) r := by
  refine ⟨h.sound.confirm _, h.mark, h.sent, h.delivered, ?_, h.acknowledged⟩
  intro f hf
  simp only [Sending.confirm, h.released_eq near, List.length_append, List.length_map,
    List.take_add] at hf
  rcases List.mem_append.1 hf with old | new
  · exact h.released f old
  · rw [← List.prefix_iff_eq_take.1 (List.takeWhile_prefix _)] at new
    obtain ⟨w, is_mark, le⟩ := reached
    have within := List.mem_takeWhile_imp new
    simp only [decide_eq_true_eq] at within
    exact ⟨w, is_mark, by omega⟩

theorem delivered_prefix (h : Agree s r) : r.delivered <+: s.pushed := by
  have reached : Formed.reachedBy r.watermark s.formed <+: s.formed :=
    Formed.reachedBy_prefix h.sound.ordered _
  have commands : r.delivered <+: s.formed.flatMap Formed.commands := by
    rw [h.delivered]
    exact reached.flatMap _
  rw [← h.sound.conserved]
  exact commands.trans (List.prefix_append _ _)

/-- The sender forgets nothing that was not handed out before. -/
theorem released_prefix (h : Agree s r) : s.released.flatMap Batch.commands <+: r.delivered := by
  have first : s.formed.take s.released.length <+: Formed.reachedBy r.watermark s.formed := by
    have split := List.take_append_drop s.released.length s.formed
    have kept : Formed.reachedBy r.watermark (s.formed.take s.released.length) =
        s.formed.take s.released.length :=
      List.filter_eq_self.2 fun f hf => by simpa using h.released f hf
    refine ⟨Formed.reachedBy r.watermark (s.formed.drop s.released.length), ?_⟩
    conv_rhs => rw [← split, Formed.reachedBy, List.filter_append]
    exact congrArg (· ++ _) kept.symm
  rw [h.sound.released, h.delivered, List.flatMap_map]
  exact first.flatMap _

/-- All counters lie below the number of flushes. -/
theorem counter_lt (h : Agree s r) :
    (∀ m ∈ s.mail, m.position < s.mail.length ∧ ∀ b ∈ m.batches, b < s.mail.length) ∧
    (∀ b ∈ s.unconfirmed, b < s.mail.length) := by
  refine ⟨fun m hm => ?_, fun b hb => ?_⟩
  · obtain ⟨before, gone, _, carries⟩ := h.sound.posted m hm
    refine ⟨before, fun b hb => ?_⟩
    rw [carries.batches] at hb
    obtain ⟨f, hf, rfl⟩ := List.mem_map.1 hb
    have within := (Formed.mem_upTo.1 (List.mem_of_mem_drop hf)).2
    omega
  · obtain ⟨f, hf, rfl⟩ := List.mem_map.1 hb
    exact h.sound.early f (List.mem_of_mem_drop hf)

end Agree
end DatagramSession
