import DatagramSession.Proofs.Conservation
import Mathlib.Algebra.GroupWithZero.Nat
import Mathlib.Data.Finset.Max
/-!
# Confirmations in any order

A confirmation releases the batches up to its number and leaves the later ones.  As long as the
numbers that are compared lie within half the circle, that is all there is to it
(`Outbound.remaining_eq`): of any confirmations, in any order and repeated at will, the newest
decides what is left, and one that is not newer than another before it releases nothing
(`Outbound.confirms_commute`).
-/
namespace DatagramSession

namespace Sending

/-- The batches of the history and the next envelope are less than half the circle apart, wherever
that wraps. -/
def Compact (s : Sending) : Prop :=
  ∀ p ∈ s.unconfirmed, s.mail.length < p + halfRange

/-- One of the last order numbers that envelopes had, less than half the circle back. -/
def Issued (s : Sending) (order : OrderNumber) : Prop :=
  ∃ p, order = numberAt p ∧ p < s.mail.length ∧ s.mail.length < p + halfRange

/-- The batches of the history by their positions. -/
def waiting (s : Sending) : List Formed :=
  s.formed.drop s.released.length

theorem Sound.ordered_waiting {s : Sending} (h : s.Sound) : Formed.Ordered s.waiting :=
  h.ordered.sublist (List.drop_sublist _ _)

/-- What is issued can be compared with what waits. -/
theorem Sound.near {s : Sending} (h : s.Sound) (compact : s.Compact) {f : Formed}
    (mem : f ∈ s.waiting) {p : Nat} (before : p < s.mail.length)
    (late : s.mail.length < p + halfRange) : Near f.position p := by
  have early := h.early f (List.mem_of_mem_drop mem)
  have recent := compact f.position (List.mem_map_of_mem mem)
  constructor <;> omega

end Sending

namespace Outbound

/-- Takes in confirmations one after the other; gives back what each of them released. -/
def confirmEach (o : Outbound) : List OrderNumber → List Nat × Outbound
  | [] => ([], o)
  | order :: rest =>
    let (count, o) := o.confirm order
    let (counts, o) := o.confirmEach rest
    (count :: counts, o)

/-- What a confirmation leaves of batches in their order. -/
theorem remaining_eq {formed : List Formed} (ordered : Formed.Ordered formed) {p : Nat}
    (near : ∀ f ∈ formed, Near f.position p) :
    remaining (numberAt p)
      (formed.map Formed.batch) = (formed.filter (p < ·.position)).map Formed.batch := by
  induction formed with
  | nil => rfl
  | cons f rest ih =>
    obtain ⟨first, ordered⟩ := List.pairwise_cons.1 ordered
    have agrees : (numberAt f.position).after (numberAt p) = decide (p < f.position) :=
      after_numberAt (near f List.mem_cons_self)
    by_cases later : p < f.position
    · have all : (f :: rest).filter (p < ·.position) = f :: rest := by
        refine List.filter_eq_self.2 fun g mem => decide_eq_true ?_
        rcases List.mem_cons.1 mem with rfl | mem
        · exact later
        · exact Nat.lt_trans later (first g mem)
      rw [all]
      simp [remaining, Formed.batch, agrees, later]
    · have left := ih ordered fun g mem => near g (List.mem_cons_of_mem _ mem)
      simpa [remaining, Formed.batch, agrees, later] using left

/-- Every batch that is gone was counted once. -/
theorem sum_confirmEach (o : Outbound) (acks : List OrderNumber) :
    (o.confirmEach acks).1.sum + (o.confirmEach acks).2.history.length = o.history.length := by
  induction acks generalizing o with
  | nil => simp [confirmEach]
  | cons order rest ih =>
    have parted := congrArg List.length (released_append_remaining order o.history)
    have later := ih (o.confirm order).2
    simp only [confirm, List.length_append] at parted later
    simp only [confirmEach, confirm, List.sum_cons]
    omega

section
variable {o : Outbound} {formed : List Formed} {positions : List Nat} {p : Nat}

/-- The batches that are later by their numbers are later by their positions. -/
theorem filter_after_eq (history : o.history = formed.map Formed.batch)
    (near : ∀ f ∈ formed, Near f.position p) :
    o.history.filter (·.id.after (numberAt p)) =
      (formed.filter (p < ·.position)).map Formed.batch := by
  rw [history, List.filter_map]
  congr 1
  exact List.filter_congr fun f mem => after_numberAt (near f mem)

/-- Of several confirmations each leaves the batches that are later. -/
theorem confirmEach_eq (ordered : Formed.Ordered formed)
    (history : o.history = formed.map Formed.batch)
    (near : ∀ f ∈ formed, ∀ p ∈ positions, Near f.position p) :
    (o.confirmEach (positions.map numberAt)).2 =
      { o with
        history := (formed.filter fun f => positions.all (· < f.position)).map Formed.batch } := by
  induction positions generalizing o formed with
  | nil => simp [confirmEach, ← history]
  | cons p rest ih =>
    have left : (o.confirm (numberAt p)).2.history =
        (formed.filter (p < ·.position)).map Formed.batch := by
      rw [← remaining_eq ordered fun f mem => near f mem p List.mem_cons_self, ← history]
      rfl
    have later := ih (ordered.filter _) left fun f mem q hq =>
      near f (List.mem_filter.1 mem).1 q (List.mem_cons_of_mem _ hq)
    rw [List.filter_filter] at later
    simpa [confirmEach, confirm, Bool.and_comm] using later

/-- The latest of several confirmations alone leaves what all of them leave. -/
theorem confirmEach_eq_confirm (ordered : Formed.Ordered formed)
    (history : o.history = formed.map Formed.batch)
    (near : ∀ f ∈ formed, ∀ p ∈ positions, Near f.position p) (mem : p ∈ positions)
    (top : ∀ q ∈ positions, q ≤ p) :
    (o.confirmEach (positions.map numberAt)).2 = (o.confirm (numberAt p)).2 := by
  have beyond : (formed.filter fun f => positions.all (· < f.position)) =
      formed.filter (p < ·.position) := by
    refine List.filter_congr fun f _ => Bool.eq_iff_iff.2 ?_
    simp only [List.all_eq_true, decide_eq_true_eq]
    exact ⟨fun all => all p mem, fun later q hq => Nat.lt_of_le_of_lt (top q hq) later⟩
  rw [confirmEach_eq ordered history near, beyond, confirm, history,
    remaining_eq ordered fun f waits => near f waits p mem]

/-- A confirmation that is not later than another before it releases nothing. -/
theorem confirm_of_stale (ordered : Formed.Ordered formed)
    (history : o.history = formed.map Formed.batch)
    (near : ∀ f ∈ formed, ∀ p ∈ positions, Near f.position p)
    (nearLast : ∀ f ∈ formed, Near f.position p) {q : Nat} (mem : q ∈ positions) (stale : p ≤ q) :
    ((o.confirmEach (positions.map numberAt)).2.confirm (numberAt p)).1 = 0 := by
  rw [confirmEach_eq ordered history near]
  cases left : formed.filter fun f => positions.all (· < f.position) with
  | nil => rfl
  | cons f rest =>
    obtain ⟨waits, beyond⟩ := List.mem_filter.1 (left ▸ List.mem_cons_self : f ∈ formed.filter _)
    have later : q < f.position := by simpa using List.all_eq_true.1 beyond q mem
    have agrees := after_numberAt (nearLast f waits)
    simp [confirm, released, Formed.batch, agrees, Nat.lt_of_le_of_lt stale later]

end

/-- Confirmations of numbers that were issued lately, in any order and with any repetitions, leave
what the newest of them alone leaves: the batches that are later than it, and all else as it was.
What they release adds up to the batches that are gone, and one that is not newer than another
before it releases nothing. -/
theorem confirms_commute (operations : List Operation)
    (compact : (Sending.after operations).Compact) {acks : List OrderNumber} (given : acks ≠ [])
    (issued : ∀ a ∈ acks, (Sending.after operations).Issued a) :
    let o := after operations
    ∃ newest ∈ acks, (∀ a ∈ acks, a = newest ∨ newest.after a = true) ∧
      (o.confirmEach acks).2 = (o.confirm newest).2 ∧
      (o.confirm newest).2 = { o with history := o.history.filter (·.id.after newest) } ∧
      (o.confirmEach acks).1.sum + (o.confirm newest).2.history.length = o.history.length ∧
      ∀ before a later, acks = before ++ a :: later → (∃ b ∈ before, a.after b = false) →
        ((o.confirmEach before).2.confirm a).1 = 0 := by
  intro o
  have h := Sending.sound_after operations
  have history : o.history = (Sending.after operations).waiting.map Formed.batch := by
    have outbound : (Sending.after operations).outbound = o := (sending_after operations).1
    rw [← outbound]
    exact h.history
  generalize Sending.after operations = s at compact issued h history
  -- of the positions that a number may stand for, only one was issued lately
  choose! place numbered early late using issued
  have numbers {some : List OrderNumber} (among : some ⊆ acks) :
      some = (some.map place).map numberAt := by
    rw [List.map_map]
    exact (List.map_congr_left fun a mem => (numbered a (among mem)).symm).trans (List.map_id some)
      |>.symm
  have near {f : Formed} (waits : f ∈ s.waiting) {a : OrderNumber} (mem : a ∈ acks) :
      Near f.position (place a) :=
    h.near compact waits (early a mem) (late a mem)
  have nearAll {some : List OrderNumber} (among : some ⊆ acks) :
      ∀ f ∈ s.waiting, ∀ p ∈ some.map place, Near f.position p :=
    fun f waits => List.forall_mem_map.2 fun a mem => near waits (among mem)
  have after_eq {a b : OrderNumber} (ha : a ∈ acks) (hb : b ∈ acks) :
      a.after b = decide (place b < place a) := by
    have apart : Near (place a) (place b) := by
      have := early a ha
      have := late a ha
      have := early b hb
      have := late b hb
      constructor <;> omega
    rw [← after_numberAt apart, ← numbered a ha, ← numbered b hb]
  obtain ⟨newest, mem, top⟩ := acks.toFinset.exists_max_image place (by simpa using given)
  simp only [List.mem_toFinset] at mem top
  have all : (o.confirmEach acks).2 = (o.confirm newest).2 := by
    rw [numbered newest mem, numbers (List.Subset.refl acks)]
    exact confirmEach_eq_confirm h.ordered_waiting history (nearAll (List.Subset.refl _))
      (List.mem_map_of_mem mem) (List.forall_mem_map.2 top)
  refine ⟨newest, mem, fun a ha => ?_, all, ?_, ?_, ?_⟩
  · rcases Nat.lt_or_eq_of_le (top a ha) with older | same
    · exact .inr (by rw [after_eq mem ha, decide_eq_true older])
    · exact .inl (by rw [numbered a ha, same, ← numbered newest mem])
  · rw [numbered newest mem, filter_after_eq history fun f waits => near waits mem, confirm,
      history, remaining_eq h.ordered_waiting fun f waits => near waits mem]
  · rw [← all]
    exact o.sum_confirmEach acks
  · rintro before a later rfl ⟨b, hb, stale⟩
    have among : before ⊆ before ++ a :: later := List.subset_append_left _ _
    have ha : a ∈ before ++ a :: later := List.mem_append_right _ List.mem_cons_self
    rw [after_eq ha (among hb), decide_eq_false_iff_not, Nat.not_lt] at stale
    rw [numbered a ha, numbers among]
    exact confirm_of_stale h.ordered_waiting history (nearAll among) (fun f waits => near waits ha)
      (List.mem_map_of_mem hb) stale

/-- Three batches; the confirmation of the second comes twice, and that of the first late. -/
theorem confirms_commute_late :
    let g (n : UInt8) : Command := .message .guaranteed 0 [n]
    let operations : List Operation :=
      [.push (g 1), .flush, .push (g 2), .flush, .push (g 3), .flush]
    let o := after operations
    o.confirmEach [1, 0, 1] = ([2, 0, 0], { o with history := [⟨2, [g 3]⟩] }) ∧
      ∃ newest ∈ ([1, 0, 1] : List OrderNumber),
      (o.confirmEach [1, 0, 1]).2 = (o.confirm newest).2 := by
  intro g operations o
  have compact : (Sending.after operations).Compact := by
    unfold Sending.Compact
    decide +kernel
  have issued : ∀ a ∈ ([1, 0, 1] : List OrderNumber), (Sending.after operations).Issued a := by
    have first : (Sending.after operations).Issued 0 :=
      ⟨0, rfl, by decide +kernel, by decide +kernel⟩
    have second : (Sending.after operations).Issued 1 :=
      ⟨1, rfl, by decide +kernel, by decide +kernel⟩
    simp [first, second]
  obtain ⟨newest, mem, -, left, -⟩ := confirms_commute operations compact (by decide) issued
  exact ⟨by decide +kernel, newest, mem, left⟩

end Outbound
end DatagramSession
