import DatagramSession.ControlQueue
import DatagramSession.Proofs.Position
import Mathlib.Data.List.Induction
/-!
# When the head of a control queue can be confirmed

A queue takes note of every frame that is newer than the last one, also of one that confirms nothing
and of one under a number that was never given out.  So the confirmation of the head is taken for an
old frame exactly if the frame that was accepted last lies at the number of the head or ahead of it
(`confirmable_iff`).  That never happens while the frames that are accepted are timely: they confirm
the head, or their number is used up.  A single frame of another kind can keep the head from being
confirmed, and a kick that takes its place (`head_overtaken`).
-/
namespace DatagramSession

/-- A number on the first half of the circle is after another one unless that lies at it or ahead of
it. -/
theorem OrderNumber.after_iff_of_lt {a w : OrderNumber} (low : a.toNat < halfRange) :
    a.after w = true ↔ halfRange ≤ (w - a).toNat := by
  have half : OrderNumber.halfCircle.toNat = 2147483647 := rfl
  have bound := w.toNat_lt
  simp only [halfRange] at low ⊢
  simp only [OrderNumber.after, UInt32.lt_iff_toNat_lt, UInt32.le_iff_toNat_le,
    UInt32.toNat_sub, half, Bool.or_eq_true, Bool.and_eq_true, decide_eq_true_eq]
  omega

namespace ControlQueue

/-- What may be done to a control queue. -/
inductive Operation where
  | push (message : ControlMessage)
  | replace (message : ControlMessage)
  /-- A frame of the other party comes, under any number, with the confirm flag or without. -/
  | accept (order : OrderNumber) (confirm : Bool)
  deriving DecidableEq

/-- A frame that was accepted. -/
structure Noted where
  order : OrderNumber
  /-- The position of the head when the frame came. -/
  position : Nat
  /-- The frame took the head out. -/
  confirmed : Bool
  deriving DecidableEq

/-- The position of the head after the frame. -/
def Noted.next (n : Noted) : Nat :=
  if n.confirmed then n.position + 1 else n.position

/-- The frame has confirmed the head, or its number was used up when it came. -/
def Noted.Timely (n : Noted) : Prop :=
  n.confirmed = true ∨ n.order.toNat < n.position

instance : DecidablePred Noted.Timely :=
  fun _ => inferInstanceAs (Decidable (_ ∨ _))

/-- The confirmation of the head takes it out, or counts as an old frame. -/
theorem accept_head {q : ControlQueue} {m : ControlMessage} {rest : List ControlMessage}
    (waits : q.waiting = m :: rest) : q.accept q.number true =
      if q.number.isNewer q.accepted then
        (.accepted (some m), { waiting := rest, number := q.number + 1, accepted := some q.number })
      else (.stale, q) := by
  simp [accept, pop, waits]

end ControlQueue

/-- A control queue beside its past. -/
structure Docket where
  queue : ControlQueue := {}
  /-- The position of the head: how many heads were confirmed or replaced. -/
  position : Nat := 0
  /-- The frames that were accepted. -/
  noted : List ControlQueue.Noted := []
  deriving DecidableEq

namespace Docket

open ControlQueue

def operate (d : Docket) : Operation → Docket
  | .push m => { d with queue := d.queue.push m }
  | .replace m =>
    { d with
      queue := d.queue.replace m
      position := if d.queue.waiting.isEmpty then d.position else d.position + 1 }
  | .accept order confirm =>
    match d.queue.accept order confirm with
    | (.stale, queue) => { d with queue }
    | (.accepted none, queue) => { d with queue, noted := d.noted ++ [⟨order, d.position, false⟩] }
    | (.accepted (some _), queue) =>
      { queue, position := d.position + 1, noted := d.noted ++ [⟨order, d.position, true⟩] }

/-- A fresh queue after a run. -/
def after (operations : List Operation) : Docket :=
  operations.foldl operate {}

theorem after_concat (operations : List Operation) (operation : Operation) :
    after (operations ++ [operation]) = (after operations).operate operation := by
  simp [after]

/-- A frame changes nothing, or is noted, or is noted and takes the head out. -/
theorem operate_accept (d : Docket) (order : OrderNumber) (confirm : Bool) :
    d.operate (.accept order confirm) = d ∨
    d.operate (.accept order confirm) =
      { d with
        queue := { d.queue with accepted := some order },
          noted := d.noted ++ [⟨order, d.position, false⟩] } ∨
    order = d.queue.number ∧ ∃ m rest,
      d.queue.waiting = m :: rest ∧ d.operate (.accept order confirm) =
      { queue := { waiting := rest, number := d.queue.number + 1, accepted := some order }
        position := d.position + 1, noted := d.noted ++ [⟨order, d.position, true⟩] } := by
  by_cases newer : order.isNewer d.queue.accepted = true
  · by_cases confirms : (confirm && order = d.queue.number) = true
    · have same : order = d.queue.number := by simpa using (Bool.and_eq_true_iff.1 confirms).2
      cases waiting : d.queue.waiting with
      | nil => right; left; simp [operate, ControlQueue.accept, pop, newer, confirms, waiting]
      | cons m rest =>
        right; right
        exact ⟨same, m, rest, rfl,
          by simp [operate, ControlQueue.accept, pop, newer, confirms, waiting]⟩
    · right; left; simp [operate, ControlQueue.accept, newer, confirms]
  · left; simp [operate, ControlQueue.accept_of_not_isNewer confirm (by simpa using newer)]

/-- The head has the number of its position, and the watermark is the frame that was noted last. -/
structure Sound (d : Docket) : Prop where
  number : d.queue.number = numberAt d.position
  accepted : d.queue.accepted = d.noted.getLast?.map Noted.order
  next_le : ∀ n ∈ d.noted, n.next ≤ d.position
  confirmed : ∀ n ∈ d.noted, n.confirmed = true → n.order = numberAt n.position

namespace Sound

variable {d : Docket}

theorem operate (h : d.Sound) (operation : Operation) : (d.operate operation).Sound := by
  have next : d.queue.number + 1 = numberAt (d.position + 1) :=
    (congrArg (· + 1) h.number).trans (numberAt_succ _).symm
  cases operation with
  | push m => exact ⟨h.number, h.accepted, h.next_le, h.confirmed⟩
  | replace m =>
    by_cases idle : d.queue.waiting.isEmpty = true
    · simp only [Docket.operate, ControlQueue.replace, idle, if_true]
      exact ⟨h.number, h.accepted, h.next_le, h.confirmed⟩
    · simp only [Docket.operate, ControlQueue.replace, idle]
      exact ⟨next, h.accepted, fun n mem => Nat.le_succ_of_le (h.next_le n mem), h.confirmed⟩
  | accept order confirm =>
    rcases d.operate_accept order confirm with same | noted | ⟨same, m, rest, _, taken⟩
    · rwa [same]
    · rw [noted]
      refine ⟨h.number, by simp, ?_, ?_⟩
      · exact List.forall_mem_append.2 ⟨h.next_le, by simp [Noted.next]⟩
      · exact List.forall_mem_append.2 ⟨h.confirmed, by simp⟩
    · rw [taken]
      refine ⟨next, by simp, ?_, ?_⟩
      · exact List.forall_mem_append.2 ⟨fun n mem => Nat.le_succ_of_le (h.next_le n mem),
          by simp [Noted.next]⟩
      · exact List.forall_mem_append.2 ⟨h.confirmed, by simpa using same.trans h.number⟩

theorem toNat_number (h : d.Sound) (few : d.position < halfRange) :
    d.queue.number.toNat = d.position := by
  simp only [halfRange] at few
  rw [h.number, numberAt, UInt32.toNat_ofNat']
  omega

/-- A timely frame lies behind the head. -/
theorem lt_of_timely (h : d.Sound) (few : d.position < halfRange) {n : Noted} (mem : n ∈ d.noted)
    (timely : n.Timely) : n.order.toNat < d.position := by
  have le := h.next_le n mem
  by_cases own : n.confirmed = true
  · simp only [Noted.next, own, if_true] at le
    simp only [halfRange] at few
    rw [h.confirmed n mem own, numberAt, UInt32.toNat_ofNat']
    omega
  · simp only [Noted.next, own] at le
    exact Nat.lt_of_lt_of_le (timely.resolve_left own) le

/-- The number of the head is new unless the frame that was noted last lies at it or ahead of it. -/
theorem isNewer_iff (h : d.Sound) (few : d.position < halfRange) :
    d.queue.number.isNewer d.queue.accepted = true ↔
    ∀ n ∈ d.noted.getLast?, halfRange ≤ (n.order - d.queue.number).toNat := by
  have low : d.queue.number.toNat < halfRange := (h.toNat_number few).symm ▸ few
  rw [h.accepted]
  cases d.noted.getLast? with
  | none => simp
  | some n => simp [OrderNumber.after_iff_of_lt low]

theorem isNewer_of_timely (h : d.Sound) (few : d.position < halfRange)
    (timely : ∀ n ∈ d.noted, n.Timely) :
    d.queue.number.isNewer d.queue.accepted = true := by
  have position := h.toNat_number few
  rw [h.accepted]
  cases last : d.noted.getLast? with
  | none => rfl
  | some n =>
    have mem := List.mem_of_getLast? last
    have behind := h.lt_of_timely few mem (timely n mem)
    rw [Option.map_some, OrderNumber.isNewer_some, OrderNumber.after_of_lt (by omega) (by omega)]
    exact decide_eq_true (by omega)

end Sound

theorem sound_after (operations : List Operation) : (after operations).Sound := by
  induction operations using List.reverseRecOn with
  | nil => exact ⟨rfl, rfl, nofun, nofun⟩
  | append_singleton operations operation ih =>
    rw [after_concat]
    exact ih.operate operation

/-- The head has the number of its position.  Its confirmation is accepted, and takes it out, if and
only if the frame that was accepted last does not lie among the `halfRange` numbers from that of the
head on; otherwise it changes nothing.  If all frames that were accepted were timely, it is
accepted. -/
theorem confirmable_iff {operations : List Operation}
    (few : (after operations).position < halfRange) {m : ControlMessage}
    {rest : List ControlMessage} (waits : (after operations).queue.waiting = m :: rest) :
    let d := after operations
    let confirmed : Acceptance × ControlQueue :=
      (.accepted (some m),
        { waiting := rest, number := d.queue.number + 1, accepted := some d.queue.number })
    d.queue.head? = some (.numbered (numberAt d.position) m true) ∧
    (d.queue.accept d.queue.number true = confirmed ↔
      ∀ n ∈ d.noted.getLast?, halfRange ≤ (n.order - d.queue.number).toNat) ∧
    (d.queue.accept d.queue.number true ≠ confirmed →
      d.queue.accept d.queue.number true = (.stale, d.queue)) ∧
    ((∀ n ∈ d.noted, n.Timely) → d.queue.accept d.queue.number true = confirmed) := by
  intro d confirmed
  have h : d.Sound := sound_after operations
  have outcome : d.queue.accept d.queue.number true =
      if d.queue.number.isNewer d.queue.accepted then confirmed else (.stale, d.queue) :=
    accept_head waits
  refine ⟨?_, ?_, ?_, fun timely => ?_⟩
  · rw [← h.number, ControlQueue.head?, waits]
    rfl
  · rw [← h.isNewer_iff few, outcome]
    split
    case isTrue newer => exact iff_of_true rfl newer
    case isFalse old => exact iff_of_false (by simp [confirmed]) old
  · rw [outcome]
    split
    case isTrue => exact fun not => absurd rfl not
    case isFalse => exact fun _ => rfl
  · rw [outcome, if_pos (h.isNewer_of_timely few timely)]

/-- A frame far ahead and then one from the other half of the circle: the first head can be
confirmed after them, though neither was timely.  After a timely frame so can the second. -/
theorem confirmable_iff_astray :
    let first : ControlMessage := .registered 4
    let astray :=
      after [.push first, .push .servicesReady, .accept 5 false, .accept 2147483652 true]
    let timely := after [.push first, .push .servicesReady, .accept 0 true, .accept 0 true]
    (astray.position < halfRange ∧ astray.queue.waiting = [first, .servicesReady] ∧
      (∀ n ∈ astray.noted.getLast?, halfRange ≤ (n.order - astray.queue.number).toNat) ∧
      astray.queue.accept astray.queue.number true =
        (.accepted (some first),
          { waiting := [.servicesReady], number := 1, accepted := some 0 })) ∧
    (timely.position < halfRange ∧ timely.queue.waiting = [.servicesReady] ∧
      (∀ n ∈ timely.noted, n.Timely) ∧
      timely.queue.accept timely.queue.number true =
        (.accepted (some .servicesReady), { waiting := [], number := 2, accepted := some 1 })) := by
  intro first astray timely
  have one := @confirmable_iff [.push first, .push .servicesReady, .accept 5 false,
    .accept 2147483652 true] (by decide) first [.servicesReady] rfl
  have two := @confirmable_iff [.push first, .push .servicesReady, .accept 0 true, .accept 0 true]
    (by decide) .servicesReady [] rfl
  exact ⟨⟨by decide, rfl, by decide, one.2.1.2 (by decide)⟩, by decide, rfl, by decide,
    two.2.2.2 (by decide)⟩

/-- One frame under the number of the head that does not confirm it, and neither the head nor its
confirmation gets through any more; one under a number that was never given out, and neither does
the kick that takes its place. -/
theorem head_overtaken :
    let unasked := after [.push .servicesReady, .accept 0 false]
    let ahead := after [.push .servicesReady, .accept 5 true, .replace (.kick "bye")]
    (unasked.position < halfRange ∧ unasked.queue.head? = some (.numbered 0 .servicesReady true) ∧
      unasked.queue.accept 0 true = (.stale, unasked.queue)) ∧
    (ahead.position < halfRange ∧ ahead.queue.head? = some (.numbered 1 (.kick "bye") true) ∧
      ahead.queue.accept 1 true = (.stale, ahead.queue)) := by
  decide

end Docket
end DatagramSession
