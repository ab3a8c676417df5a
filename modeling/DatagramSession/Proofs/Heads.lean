import DatagramSession.Proofs.Confirmations
/-!
# Frames of a control queue

A frame that was sent is the head of its queue, or its number is used up (`ControlQueue.Shows`), as
long as the queue has been given fewer messages than half the circle has numbers
(`ControlQueue.Tidy`).  Then the confirmation of a frame takes out the head if it is the head's, and
otherwise nothing (`accept_shown`).
-/
namespace DatagramSession

namespace ControlQueue

/-- The frame is the head, or its number is used up. -/
def Shows (q : ControlQueue) (f : ControlFrame) : Prop :=
  f.order.toNat < q.number.toNat ∨ q.head? = some f

section
variable {q : ControlQueue} {f g : ControlFrame}

theorem head?_eq_some :
    q.head? = some f ↔ ∃ m rest, q.waiting = m :: rest ∧ f = .numbered q.number m true := by
  unfold head?
  cases q.waiting <;> simp [eq_comm]

theorem order_of_head? (head : q.head? = some f) : f.order = q.number := by
  obtain ⟨m, rest, _, rfl⟩ := head?_eq_some.1 head
  rfl

theorem Shows.le (shown : q.Shows f) : f.order.toNat ≤ q.number.toNat := by
  rcases shown with less | head
  · exact Nat.le_of_lt less
  · exact Nat.le_of_eq (congrArg UInt32.toNat (order_of_head? head))

/-- A frame that is not behind the head is the head. -/
theorem Shows.head (shown : q.Shows g) (head : q.head? = some f)
    (le : f.order.toNat ≤ g.order.toNat) : g = f := by
  rw [order_of_head? head] at le
  rcases shown with less | same
  · omega
  · rw [head] at same
    exact (Option.some.inj same).symm

theorem Shows.push (shown : q.Shows f) (m : ControlMessage) : (q.push m).Shows f := by
  refine shown.imp_right fun head => ?_
  obtain ⟨first, rest, waiting, rfl⟩ := head?_eq_some.1 head
  exact head?_eq_some.2 ⟨first, rest ++ [m], by simp [ControlQueue.push, waiting], rfl⟩

/-- The number of a head is used up when the head is replaced. -/
theorem Shows.replace (shown : q.Shows f) (low : q.waiting ≠ [] → q.number.toNat < halfRange)
    (m : ControlMessage) :
    (q.replace m).Shows f := by
  left
  cases waiting : q.waiting with
  | nil =>
    rcases shown with less | head
    · simpa [ControlQueue.replace, waiting] using less
    · simp [head?, waiting] at head
  | cons first rest =>
    have le := shown.le
    have next := OrderNumber.toNat_succ (low (by simp [waiting]))
    simp only [ControlQueue.replace, waiting, List.isEmpty_cons, Bool.false_eq_true, if_false, next]
    omega

/-- A queue that has its numbers in order: none is used up twice, and none was accepted that is
still up. -/
structure Tidy (q : ControlQueue) (queued : Nat) : Prop where
  count : q.number.toNat + q.waiting.length ≤ 2 + queued
  accepted : ∀ o ∈ q.accepted, o.toNat < q.number.toNat

variable {n : Nat}

theorem Tidy.low (tidy : q.Tidy n) (few : 2 + n ≤ halfRange) (waits : q.waiting ≠ []) :
    q.number.toNat < halfRange := by
  have count := tidy.count
  have some := List.length_pos_iff.2 waits
  omega

theorem Tidy.lt_halfRange (tidy : q.Tidy n) (few : 2 + n ≤ halfRange) (shown : q.Shows f) :
    f.order.toNat < halfRange := by
  have count := tidy.count
  rcases shown with less | head
  · omega
  · obtain ⟨m, rest, waiting, rfl⟩ := head?_eq_some.1 head
    exact tidy.low few (by simp [waiting])

theorem Tidy.push (tidy : q.Tidy n) (m : ControlMessage) : (q.push m).Tidy (n + 1) := by
  have count := tidy.count
  refine ⟨?_, tidy.accepted⟩
  simp only [ControlQueue.push, List.length_append, List.length_singleton]
  omega

theorem Tidy.replace (tidy : q.Tidy n) (few : 2 + n ≤ halfRange) (m : ControlMessage) :
    (q.replace m).Tidy (n + 1) := by
  have count := tidy.count
  cases waiting : q.waiting with
  | nil =>
    rw [waiting] at count
    refine ⟨?_, by simpa [ControlQueue.replace, waiting] using tidy.accepted⟩
    simp only [ControlQueue.replace, waiting, List.isEmpty_nil, if_true, List.length_singleton]
    omega
  | cons first rest =>
    have next := OrderNumber.toNat_succ (tidy.low few (by simp [waiting]))
    rw [waiting, List.length_cons] at count
    constructor
    · simp only [ControlQueue.replace, waiting, List.isEmpty_cons, Bool.false_eq_true,
        if_false, next, List.length_singleton]
      omega
    · intro o mem
      have before := tidy.accepted o mem
      simp only [ControlQueue.replace, waiting, List.isEmpty_cons, Bool.false_eq_true,
        if_false, next]
      omega

/-- The confirmation of a frame that was shown takes it out if it is the head, and otherwise changes
nothing that waits. -/
theorem accept_shown (tidy : q.Tidy n) (few : 2 + n ≤ halfRange) (shown : q.Shows f) :
    (q.head? = some f ∧ (q.accept f.order true).1 = .accepted (some f.message) ∧
      (q.accept f.order true).2 =
        { waiting := q.waiting.tail, number := q.number + 1, accepted := some f.order }) ∨
    (q.head? ≠ some f ∧ (∀ m, (q.accept f.order true).1 ≠ .accepted (some m)) ∧
      (q.accept f.order true).2.waiting = q.waiting ∧ (q.accept f.order true).2.number = q.number ∧
      ∀ o ∈ (q.accept f.order true).2.accepted, o.toNat < q.number.toNat) := by
  by_cases head : q.head? = some f
  · left
    obtain ⟨m, rest, waiting, rfl⟩ := head?_eq_some.1 head
    have low := tidy.low few (by simp [waiting])
    have newer : q.number.isNewer q.accepted = true := by
      cases accepted : q.accepted with
      | none => rfl
      | some o =>
        have before := tidy.accepted o accepted
        rw [OrderNumber.isNewer_some, OrderNumber.after_of_lt low (Nat.lt_trans before low)]
        exact decide_eq_true before
    refine ⟨head, ?_, ?_⟩ <;> simp [accept, pop, newer, waiting, ControlFrame.numbered]
  · right
    have less := shown.resolve_right head
    have other : f.order ≠ q.number := by
      rintro same
      rw [same] at less
      exact Nat.lt_irrefl _ less
    refine ⟨head, ?_⟩
    unfold accept
    split
    · simp only [other, decide_false, Bool.and_false, Bool.false_eq_true, if_false]
      refine ⟨fun m taken => ?_, trivial, trivial, fun o mem => ?_⟩
      · cases taken
      · cases mem
        exact less
    · refine ⟨fun m taken => ?_, rfl, rfl, tidy.accepted⟩
      cases taken

/-- After the confirmation of a frame that was shown, what was shown still is. -/
theorem Shows.accept (tidy : q.Tidy n) (few : 2 + n ≤ halfRange) (confirmed : q.Shows f)
    (shown : q.Shows g) :
    (q.accept f.order true).2.Shows g := by
  rcases accept_shown tidy few confirmed with ⟨head, _, after⟩ | ⟨_, _, waiting, number, _⟩
  · left
    obtain ⟨m, rest, waiting, rfl⟩ := head?_eq_some.1 head
    have next := OrderNumber.toNat_succ (tidy.low few (by simp [waiting]))
    have le := shown.le
    rw [after]
    show g.order.toNat < (q.number + 1).toNat
    omega
  · unfold Shows head?
    rw [waiting, number]
    exact shown

theorem Tidy.accept (tidy : q.Tidy n) (few : 2 + n ≤ halfRange) (confirmed : q.Shows f) :
    (q.accept f.order true).2.Tidy n := by
  have count := tidy.count
  rcases accept_shown tidy few confirmed with ⟨head, _, after⟩ | ⟨_, _, waiting, number, accepted⟩
  · obtain ⟨m, rest, waiting, rfl⟩ := head?_eq_some.1 head
    have next := OrderNumber.toNat_succ (tidy.low few (by simp [waiting]))
    rw [after]
    rw [waiting, List.length_cons] at count
    constructor
    · simp only [next, waiting, List.tail_cons]
      omega
    · intro o mem
      cases mem
      show q.number.toNat < (q.number + 1).toNat
      omega
  · exact ⟨by rw [waiting, number]; exact count, by rw [number]; exact accepted⟩

end

end ControlQueue
end DatagramSession
