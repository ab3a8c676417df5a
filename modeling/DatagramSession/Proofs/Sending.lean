import DatagramSession.Outbound
import DatagramSession.Proofs.Position
/-!
# An outbound state with its past

`Sending` is an outbound state beside the record of what went through it: the guaranteed commands
that were pushed, the batches that were formed, those that confirmations released, and every
envelope that was built, all named by positions that do not wrap.  `Sending.Sound` ties the record
to the state, and every operation keeps it.
-/
namespace DatagramSession

/-- A batch with the position of the flush that formed it. -/
structure Formed where
  position : Nat
  commands : List Command
  deriving DecidableEq

namespace Formed

/-- The batch as envelopes carry it. -/
def batch (f : Formed) : Batch := ⟨numberAt f.position, f.commands⟩

/-- Formed one after the other. -/
def Ordered (formed : List Formed) : Prop := formed.Pairwise fun a b => a.position < b.position

/-- The batches up to a position. -/
def upTo (formed : List Formed) (p : Nat) : List Formed := formed.filter (·.position ≤ p)

end Formed

/-- An envelope that was built, with its position and those of the batches that it carries. -/
structure Mail where
  envelope : Envelope
  position : Nat
  batches : List Nat
  deriving DecidableEq

/-- An outbound state and its past. -/
structure Sending where
  outbound : Outbound := {}
  /-- The guaranteed commands that were pushed. -/
  pushed : List Command := []
  formed : List Formed := []
  /-- The batches that confirmations took out of the history. -/
  released : List Batch := []
  /-- The envelopes that were built; each flush that is due builds one. -/
  mail : List Mail := []

namespace Sending

def push (s : Sending) (c : Command) : Sending :=
  { s with
    outbound := s.outbound.push c
    pushed := if c.isGuaranteed then s.pushed ++ [c] else s.pushed }

def keepAlive (s : Sending) : Sending :=
  { s with outbound := s.outbound.keepAlive }

/-- The batch that the next flush forms, if guaranteed commands wait for it. -/
def forming (s : Sending) : List Formed :=
  if s.outbound.guaranteed.isEmpty then [] else [⟨s.mail.length, s.outbound.guaranteed⟩]

/-- The positions of the batches in the history. -/
def unconfirmed (s : Sending) : List Nat :=
  (s.formed.drop s.released.length).map Formed.position

/-- The envelope that the next flush builds, if one is due. -/
def building (s : Sending) : Mail where
  envelope := s.outbound.envelope
  position := s.mail.length
  batches := ((s.formed ++ s.forming).drop s.released.length).map Formed.position

def flush (s : Sending) : Sending :=
  match s.outbound.flush with
  | (none, outbound) => { s with outbound }
  | (some envelope, outbound) =>
    let s := { s with outbound, formed := s.formed ++ s.forming }
    { s with mail := s.mail ++ [⟨envelope, s.mail.length, s.unconfirmed⟩] }

/-- The envelope that a flush sends. -/
def next? (s : Sending) : Option Mail :=
  (s.flush.mail.drop s.mail.length).head?

def confirm (s : Sending) (order : OrderNumber) : Sending :=
  { s with
    outbound := (s.outbound.confirm order).2
    released := s.released ++ Outbound.released order s.outbound.history }

end Sending

namespace Formed

/-- Whatever earlier batches have as well cuts an ordered list in two. -/
theorem filter_append_filter_not {formed : List Formed} (ordered : Ordered formed)
    {q : Formed → Bool} (closed : ∀ a b, a.position < b.position → q b → q a) :
    formed.filter q ++ formed.filter (!q ·) = formed := by
  induction formed with
  | nil => rfl
  | cons f rest ih =>
    obtain ⟨first, ordered⟩ := List.pairwise_cons.1 ordered
    by_cases hf : q f
    · simpa [hf] using ih ordered
    · have later : ∀ g ∈ rest, ¬ q g := fun g hg hq => hf (closed f g (first g hg) hq)
      have none_kept : rest.filter q = [] := List.filter_eq_nil_iff.2 later
      have all_kept : rest.filter (!q ·) = rest := List.filter_eq_self.2 fun g hg => by
        simpa using later g hg
      simp [hf, none_kept, all_kept]

theorem filter_prefix {formed : List Formed} (ordered : Ordered formed) {q : Formed → Bool}
    (closed : ∀ a b, a.position < b.position → q b → q a) : formed.filter q <+: formed :=
  ⟨_, filter_append_filter_not ordered closed⟩

theorem upTo_prefix {formed : List Formed} (ordered : Ordered formed) (p : Nat) :
    upTo formed p <+: formed :=
  filter_prefix ordered fun a b earlier within => by
    simp only [decide_eq_true_eq] at within ⊢
    omega

theorem upTo_of_forall_le {formed : List Formed} {p : Nat} (h : ∀ f ∈ formed, f.position ≤ p) :
    upTo formed p = formed :=
  List.filter_eq_self.2 fun f hf => by simpa using h f hf

theorem upTo_append_of_forall_lt {formed later : List Formed} {p : Nat}
    (h : ∀ f ∈ later, p < f.position) :
    upTo (formed ++ later) p = upTo formed p := by
  have dropped : upTo later p = [] := List.filter_eq_nil_iff.2 fun f hf => by
    have := h f hf
    simp only [decide_eq_true_eq]
    omega
  rw [upTo, List.filter_append]
  change upTo formed p ++ upTo later p = _
  rw [dropped, List.append_nil]

theorem mem_upTo {formed : List Formed} {p : Nat} {f : Formed} :
    f ∈ upTo formed p ↔ f ∈ formed ∧ f.position ≤ p := by
  simp [upTo]

end Formed

/-- The envelope carries the batches up to its position, less the first ones. -/
structure Mail.Carries (m : Mail) (formed : List Formed) (gone : Nat) : Prop where
  order : m.envelope.order = numberAt m.position
  guaranteed : m.envelope.guaranteed = ((Formed.upTo formed m.position).drop gone).map Formed.batch
  batches : m.batches = ((Formed.upTo formed m.position).drop gone).map Formed.position

namespace Sending

/-- The record and the state agree. -/
structure Sound (s : Sending) : Prop where
  number : s.outbound.nextOrder = numberAt s.mail.length
  ordered : Formed.Ordered s.formed
  early : ∀ f ∈ s.formed, f.position < s.mail.length
  parted : s.released ++ s.outbound.history = s.formed.map Formed.batch
  conserved : s.formed.flatMap Formed.commands ++ s.outbound.guaranteed = s.pushed
  idle : s.outbound.asked = false → s.outbound.guaranteed = [] ∧ s.outbound.unreliable = []
  guaranteed : ∀ c ∈ s.pushed, c.isGuaranteed = true
  posted : ∀ m ∈ s.mail, m.position < s.mail.length ∧ ∃ gone ≤ s.released.length,
    m.Carries s.formed gone

theorem Sound.history {s : Sending} (h : s.Sound) :
    s.outbound.history = (s.formed.drop s.released.length).map Formed.batch := by
  rw [List.map_drop, ← h.parted, List.drop_left]

theorem Sound.released {s : Sending} (h : s.Sound) :
    s.released = (s.formed.take s.released.length).map Formed.batch := by
  rw [List.map_take, ← h.parted, List.take_left]

theorem sound_start : Sound {} where
  number := rfl
  ordered := List.Pairwise.nil
  early := by simp
  parted := rfl
  conserved := rfl
  idle _ := ⟨rfl, rfl⟩
  guaranteed := by simp
  posted := by simp

theorem Sound.push {s : Sending} (h : s.Sound) (c : Command) : (s.push c).Sound := by
  by_cases guaranteed : c.isGuaranteed
  · have conserved : s.formed.flatMap Formed.commands ++ (s.outbound.guaranteed ++ [c]) =
        s.pushed ++ [c] := by
      rw [← h.conserved, List.append_assoc]
    have all : ∀ d ∈ s.pushed ++ [c], d.isGuaranteed = true := by
      intro d hd
      rcases List.mem_append.1 hd with old | new
      · exact h.guaranteed d old
      · exact List.mem_singleton.1 new ▸ guaranteed
    simp only [Sending.push, Outbound.push, guaranteed, if_true]
    exact ⟨h.number, h.ordered, h.early, h.parted, conserved, nofun, all, h.posted⟩
  · simp only [Sending.push, Outbound.push, guaranteed]
    exact ⟨h.number, h.ordered, h.early, h.parted, h.conserved, nofun, h.guaranteed, h.posted⟩

theorem Sound.keepAlive {s : Sending} (h : s.Sound) : s.keepAlive.Sound :=
  ⟨h.number, h.ordered, h.early, h.parted, h.conserved, nofun, h.guaranteed, h.posted⟩

theorem Sound.confirm {s : Sending} (h : s.Sound) (order : OrderNumber) :
    (s.confirm order).Sound where
  number := h.number
  ordered := h.ordered
  early := h.early
  parted := by
    simp only [Sending.confirm, Outbound.confirm, List.append_assoc]
    rw [Outbound.released_append_remaining, h.parted]
  conserved := h.conserved
  idle := h.idle
  guaranteed := h.guaranteed
  posted m hm := by
    obtain ⟨before, gone, le, carries⟩ := h.posted m hm
    refine ⟨before, gone, ?_, carries⟩
    simp only [Sending.confirm, List.length_append]
    omega

theorem forming_position {s : Sending} {f : Formed} (h : f ∈ s.forming) :
    f.position = s.mail.length := by
  unfold forming at h
  split at h
  · cases h
  · rw [List.mem_singleton.1 h]

theorem flatMap_forming (s : Sending) :
    s.forming.flatMap Formed.commands = s.outbound.guaranteed := by
  unfold forming
  split
  · simp_all
  · simp

/-- The history that a flush sends. -/
theorem Sound.extendedHistory {s : Sending} (h : s.Sound) :
    s.outbound.extendedHistory = s.outbound.history ++ s.forming.map Formed.batch := by
  unfold Outbound.extendedHistory forming
  split
  · simp
  · simp [Formed.batch, h.number]

theorem flush_of_not_isDue {s : Sending} (h : s.outbound.isDue = false) : s.flush = s := by
  rw [Sending.flush, Outbound.flush_of_not_isDue h]

/-- The state after a flush that is due. -/
theorem flush_of_isDue {s : Sending} (h : s.outbound.isDue = true) :
    s.flush = { s with
      outbound := s.outbound.flushed
      formed := s.formed ++ s.forming
      mail := s.mail ++ [s.building] } := by
  rw [Sending.flush, Outbound.flush_of_isDue h]
  rfl

theorem mail_prefix_flush (s : Sending) : s.mail <+: s.flush.mail := by
  by_cases due : s.outbound.isDue
  · rw [flush_of_isDue due]
    exact List.prefix_append _ _
  · have idle : s.flush = s := flush_of_not_isDue (by simpa using due)
    simp [idle]

theorem next?_of_not_isDue {s : Sending} (h : s.outbound.isDue = false) : s.next? = none := by
  simp [next?, flush_of_not_isDue h]

theorem next?_of_isDue {s : Sending} (h : s.outbound.isDue = true) : s.next? = some s.building := by
  simp [next?, flush_of_isDue h]

theorem Sound.ordered_forming {s : Sending} (h : s.Sound) :
    Formed.Ordered (s.formed ++ s.forming) := by
  refine List.pairwise_append.2 ⟨h.ordered, ?_, ?_⟩
  · unfold forming
    split
    · exact List.Pairwise.nil
    · exact List.pairwise_singleton _ _
  · intro a ha b hb
    rw [forming_position hb]
    exact h.early a ha

theorem Sound.forall_le_forming {s : Sending} (h : s.Sound) :
    ∀ f ∈ s.formed ++ s.forming, f.position ≤ s.mail.length := by
  intro f hf
  rcases List.mem_append.1 hf with old | new
  · exact Nat.le_of_lt (h.early f old)
  · exact Nat.le_of_eq (forming_position new)

theorem Sound.parted_forming {s : Sending} (h : s.Sound) :
    s.released ++ s.outbound.extendedHistory = (s.formed ++ s.forming).map Formed.batch := by
  rw [h.extendedHistory, ← List.append_assoc, h.parted, List.map_append]

/-- The envelope of a flush carries the whole history, what the flush adds to it included. -/
theorem Sound.building {s : Sending} (h : s.Sound) :
    s.building.Carries (s.formed ++ s.forming) s.released.length := by
  have whole : Formed.upTo (s.formed ++ s.forming) s.building.position = s.formed ++ s.forming :=
    Formed.upTo_of_forall_le h.forall_le_forming
  refine ⟨h.number, ?_, ?_⟩
  · rw [whole, List.map_drop, ← h.parted_forming, List.drop_left]
    rfl
  · rw [whole]
    rfl

theorem Sound.flush {s : Sending} (h : s.Sound) : s.flush.Sound := by
  by_cases due : s.outbound.isDue
  · rw [flush_of_isDue due]
    refine ⟨?_, h.ordered_forming, ?_, h.parted_forming, ?_, fun _ => ⟨rfl, rfl⟩, h.guaranteed, ?_⟩
    · simp [Outbound.flushed, h.number, numberAt_succ]
    · intro f hf
      have := h.forall_le_forming f hf
      simp only [List.length_append, List.length_singleton]
      omega
    · simp [Outbound.flushed, flatMap_forming, h.conserved]
    · intro m hm
      simp only [List.length_append, List.length_singleton]
      rcases List.mem_append.1 hm with old | new
      · obtain ⟨before, gone, le, carries⟩ := h.posted m old
        have later : ∀ f ∈ s.forming, m.position < f.position := fun f hf => by
          rw [forming_position hf]; exact before
        refine ⟨by omega, gone, le, ?_, ?_, ?_⟩
        · exact carries.order
        · rw [Formed.upTo_append_of_forall_lt later]
          exact carries.guaranteed
        · rw [Formed.upTo_append_of_forall_lt later]
          exact carries.batches
      · rw [List.mem_singleton.1 new]
        exact ⟨Nat.lt_succ_self _, s.released.length, Nat.le_refl _, h.building⟩
  · rw [flush_of_not_isDue (by simpa using due)]
    exact h

/-- What envelopes carry in batches was pushed, and is guaranteed. -/
theorem Sound.isGuaranteed {s : Sending} (h : s.Sound) {m : Mail} (sent : m ∈ s.mail) {b : Batch}
    (hb : b ∈ m.envelope.guaranteed) {c : Command} (hc : c ∈ b.commands) :
    c.isGuaranteed = true := by
  obtain ⟨_, gone, _, carries⟩ := h.posted m sent
  rw [carries.guaranteed] at hb
  obtain ⟨f, hf, rfl⟩ := List.mem_map.1 hb
  have formed := (Formed.mem_upTo.1 (List.mem_of_mem_drop hf)).1
  apply h.guaranteed
  rw [← h.conserved]
  exact List.mem_append_left _ (List.mem_flatMap.2 ⟨f, formed, hc⟩)

end Sending
end DatagramSession
