import DatagramSession.Proofs.Agreement
/-!
# One direction of a session

A sender, a receiver with its listeners, and a network that keeps every envelope and every
acknowledgement for ever and delivers any of them at any time, any number of times.
`delivered_in_order` says what the listeners are handed over any run: each guaranteed command once
and in order, and nothing is forgotten by the sender before.
-/
namespace DatagramSession

/-- The two parties; what is on the network is the sender's mail and the receiver's
acknowledgements. -/
structure OneWay (η σ : Type) where
  sending : Sending := {}
  receiving : Receiving := {}
  /-- The state of the receiver's listeners. -/
  listeners : σ
  /-- Every call that the receiver has made. -/
  calls : List (Call η) := []

namespace OneWay

variable {η σ : Type}

/-- Hands an envelope to the receiver. -/
def deliver (x : OneWay η σ) (r : Receiver η σ) (m : Mail) : OneWay η σ :=
  let (outcome, inbound, listeners, calls) :=
    r.recorded.receive x.receiving.inbound m.envelope (x.listeners, x.calls)
  { x with receiving := x.receiving.note m outcome inbound, listeners, calls }

/-- Hands the sender the acknowledgement of an envelope. -/
def confirm (x : OneWay η σ) (m : Mail) : OneWay η σ :=
  { x with sending := x.sending.confirm m.envelope.order }

/-- The counters that are compared when an envelope arrives. -/
def countersOf (x : OneWay η σ) (m : Mail) : List Nat :=
  m.position :: m.batches ++ x.receiving.watermark.toList

/-- The counters that are compared when the acknowledgement of an envelope arrives. -/
def ackCountersOf (x : OneWay η σ) (m : Mail) : List Nat :=
  m.position :: x.sending.unconfirmed

/-- What may happen next.  A delivery needs its counters to lie within half the circle, wherever
that wraps. -/
inductive Step (r : Receiver η σ) : OneWay η σ → OneWay η σ → Prop where
  | push (x : OneWay η σ) (c : Command) : Step r x { x with sending := x.sending.push c }
  | keepAlive (x : OneWay η σ) : Step r x { x with sending := x.sending.keepAlive }
  | flush (x : OneWay η σ) : Step r x { x with sending := x.sending.flush }
  | deliver (x : OneWay η σ) (m : Mail) (built : m ∈ x.sending.mail)
      (near : Windowed (x.countersOf m)) :
      Step r x (x.deliver r m)
  | confirm (x : OneWay η σ) (m : Mail) (given : m ∈ x.receiving.acknowledged)
      (near : Windowed (x.ackCountersOf m)) : Step r x (x.confirm m)
  /-- Listeners come and go. -/
  | listen (x : OneWay η σ) (s : σ) : Step r x { x with listeners := s }

/-- What a run reaches from two fresh parties while the listeners stay in a certain condition. -/
inductive Run (r : Receiver η σ) (steady : σ → Prop) (s₀ : σ) : OneWay η σ → Prop where
  | start : steady s₀ → Run r steady s₀ { listeners := s₀ }
  | next {x y : OneWay η σ} : Run r steady s₀ x → Step r x y → steady y.listeners →
      Run r steady s₀ y

/-- A delivery is the taking of the envelope and its calls. -/
theorem deliver_eq (x : OneWay η σ) (r : Receiver η σ) (m : Mail) :
    (x.deliver r m).sending = x.sending ∧ (x.deliver r m).receiving = x.receiving.take m ∧
    (x.deliver r m).calls = x.calls ++
      if m.envelope.order.isNewer x.receiving.inbound.watermark
      then m.envelope.calls x.receiving.inbound.watermark (r.handlers x.listeners) else [] := by
  simp only [deliver, Receiver.receive_eq, Receiver.performAll_recorded]
  refine ⟨trivial, rfl, ?_⟩
  split
  · rfl
  · simp

/-- Counters that lie within half the circle can be compared. -/
theorem compares_of_windowed {x : OneWay η σ} {m : Mail} (near : Windowed (x.countersOf m)) :
    x.receiving.Compares m := by
  intro w hw
  have mark : w ∈ x.countersOf m := List.mem_append_right _ (Option.mem_toList.2 hw)
  refine ⟨near_of_windowed near List.mem_cons_self mark, fun b hb => near_of_windowed near ?_ mark⟩
  exact List.mem_append_left _ (List.mem_cons_of_mem _ hb)

theorem step_agree {r : Receiver η σ} {x y : OneWay η σ} (step : Step r x y)
    (h : Agree x.sending x.receiving) : Agree y.sending y.receiving := by
  cases step with
  | push c => exact h.push c
  | keepAlive => exact h.keepAlive
  | flush => exact h.flush
  | deliver m built near =>
    obtain ⟨same, taken, _⟩ := deliver_eq x r m
    rw [same, taken]
    exact h.take built (compares_of_windowed near)
  | confirm m given near =>
    obtain ⟨sent, reached⟩ := h.acknowledged m given
    obtain ⟨_, _, _, carries⟩ := h.sound.posted m sent
    have released := h.confirm reached fun b hb =>
      near_of_windowed near (List.mem_cons_of_mem _ hb) List.mem_cons_self
    rwa [← carries.order] at released
  | listen s => exact h

theorem Run.agree {r : Receiver η σ} {steady : σ → Prop} {s₀ : σ} {x : OneWay η σ}
    (run : Run r steady s₀ x) :
    Agree x.sending x.receiving := by
  induction run with
  | start _ => exact agree_start
  | next _ step _ ih => exact step_agree step ih

/-- The acknowledgements on the network are those that the receiver gave. -/
theorem Run.acksGiven {r : Receiver η σ} {steady : σ → Prop} {s₀ : σ} {x : OneWay η σ}
    (run : Run r steady s₀ x) :
    acksGiven x.calls = x.receiving.acknowledged.map fun m => .ack m.envelope.order := by
  induction run with
  | start _ => rfl
  | @next x _ _ step _ ih =>
    cases step with
    | deliver m =>
      obtain ⟨_, taken, called⟩ := deliver_eq x r m
      rw [taken, called, acksGiven_append, ih]
      by_cases newer : m.envelope.order.isNewer x.receiving.inbound.watermark
      · rw [Receiving.take_of_isNewer newer, if_pos newer, acksGiven_calls]
        by_cases asks : m.envelope.asksForAck <;> simp [asks]
      · rw [Receiving.take_of_not_isNewer (by simpa using newer), if_neg newer]
        exact List.append_nil _
    | _ => exact ih

/-- A listener is handed what is new in every envelope, once for each of its registrations. -/
theorem Run.handedTo [DecidableEq η] {r : Receiver η σ} {h : η} {n : Nat} {s₀ : σ} {x : OneWay η σ}
    (run : Run r (fun s => (r.handlers s).count h = n) s₀ x) :
    handedTo h x.calls = x.receiving.delivered.flatMap (List.replicate n) := by
  induction run with
  | start _ => rfl
  | @next x _ before step _ ih =>
    cases step with
    | deliver m =>
      obtain ⟨_, taken, called⟩ := deliver_eq x r m
      rw [taken, called, handedTo_append, ih]
      by_cases newer : m.envelope.order.isNewer x.receiving.inbound.watermark
      · have registered : (r.handlers x.listeners).count h = n := by cases before <;> assumption
        rw [Receiving.take_of_isNewer newer, if_pos newer, handedTo_calls, registered,
          List.flatMap_append]
      · rw [Receiving.take_of_not_isNewer (by simpa using newer), if_neg newer]
        exact List.append_nil _
    | _ => exact ih

/-- While there are no more flushes than half the circle has positions, the counters of every
delivery lie close enough together. -/
theorem windowed_of_few {x : OneWay η σ} (agree : Agree x.sending x.receiving)
    (few : x.sending.mail.length ≤ halfRange) :
    (∀ m ∈ x.sending.mail, Windowed (x.countersOf m)) ∧
    (∀ m ∈ x.receiving.acknowledged, Windowed (x.ackCountersOf m)) := by
  constructor
  · intro m hm
    obtain ⟨position, batches⟩ := agree.counter_lt.1 m hm
    apply windowed_of_lt
    intro p hp
    simp only [countersOf, List.mem_append, List.mem_cons, Option.mem_toList] at hp
    rcases hp with (rfl | batch) | mark
    · omega
    · have := batches p batch
      omega
    · have := agree.sent p mark
      omega
  · intro m hm
    have position := (agree.counter_lt.1 m (agree.acknowledged m hm).1).1
    apply windowed_of_lt
    intro p hp
    rcases List.mem_cons.1 hp with rfl | batch
    · omega
    · have := agree.counter_lt.2 p batch
      omega

/-- Whatever the network does, a listener that stays registered `n` times is handed a prefix of the
guaranteed commands in the order in which they were pushed, each `n` times in a row; and the batches
that confirmations have released are a prefix of that.  While there are no more flushes than half
the circle has positions, the counters of every delivery lie close enough together. -/
theorem delivered_in_order {η σ : Type} [DecidableEq η] {r : Receiver η σ} {h : η} {n : Nat}
    {s₀ : σ} {x : OneWay η σ} (run : Run r (fun s => (r.handlers s).count h = n) s₀ x) :
    handedTo h x.calls = x.receiving.delivered.flatMap (List.replicate n) ∧
    x.receiving.delivered <+: x.sending.pushed ∧
    x.sending.released.flatMap Batch.commands <+: x.receiving.delivered ∧
    (x.sending.mail.length ≤ halfRange →
      (∀ m ∈ x.sending.mail, Windowed (x.countersOf m)) ∧
      (∀ m ∈ x.receiving.acknowledged, Windowed (x.ackCountersOf m))) := by
  have agree := run.agree
  exact ⟨run.handedTo, agree.delivered_prefix, agree.released_prefix, windowed_of_few agree⟩

/-- The first of two envelopes is overtaken by the second, which carries its batch again. -/
theorem delivered_in_order_overtaken :
    let r : Receiver Unit Unit := ⟨fun _ => [()], fun _ s => s⟩
    let first : Command := .message .guaranteed 1 [1]
    let second : Command := .message .guaranteed 1 [2]
    ∃ x : OneWay Unit Unit, Run r (fun s => (r.handlers s).count () = 1) () x ∧
      handedTo () x.calls = [first, second] ∧ x.receiving.delivered <+: x.sending.pushed ∧
      x.sending.released = [⟨0, [first]⟩, ⟨1, [second]⟩] := by
  intro r first second
  let overtaken : Mail := ⟨⟨0, [⟨0, [first]⟩], []⟩, 0, [0]⟩
  let later : Mail := ⟨⟨1, [⟨0, [first]⟩, ⟨1, [second]⟩], []⟩, 1, [0, 1]⟩
  have start : Run r (fun s => (r.handlers s).count () = 1) () { listeners := () } := .start rfl
  have flushed := (start.next (.push _ first) rfl).next (.flush _) rfl
  have sent := (flushed.next (.push _ second) rfl).next (.flush _) rfl
  have taken := sent.next (.deliver _ later (by decide) (windowed_of_lt (by decide))) rfl
  have ignored := taken.next (.deliver _ overtaken (by decide) (windowed_of_lt (by decide))) rfl
  have confirmed := ignored.next (.confirm _ later (by decide) (windowed_of_lt (by decide))) rfl
  exact ⟨_, confirmed, by decide, (delivered_in_order confirmed).2.1, by decide⟩

end OneWay
end DatagramSession
