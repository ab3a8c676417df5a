import DatagramSession.ControlQueue
import DatagramSession.Proofs.Clients
import DatagramSession.Proofs.Position
import DatagramSession.Proofs.Transports
/-!
# Confirmations of control messages

A control queue, the client that it talks to, and a network that keeps every frame and every
confirmation for ever and delivers any of them at any time, any number of times.
`applied_before_confirmed` says what comes of it in fewer steps than half the circle has numbers: no
number ever stands for two messages, the client applies the messages that it is shown in the order
of their numbers and each once, and what is confirmed was applied before.
-/
namespace DatagramSession

namespace ControlQueue

/-- Either the head is confirmed and the next number is up, or all that waits stays under its
number. -/
theorem accept_cases (q : ControlQueue) (order : OrderNumber) (confirm : Bool) :
    (∃ m rest, order = q.number ∧ q.waiting = m :: rest ∧ q.accept order confirm =
      (.accepted (some m), { waiting := rest, number := q.number + 1, accepted := some order })) ∨
    ((∀ m, (q.accept order confirm).1 ≠ .accepted (some m)) ∧
      (q.accept order confirm).2.waiting = q.waiting ∧
      (q.accept order confirm).2.number = q.number) := by
  by_cases newer : order.isNewer q.accepted = true
  · by_cases confirms : (confirm && order = q.number) = true
    · have same : order = q.number := by simpa using (Bool.and_eq_true_iff.1 confirms).2
      cases waiting : q.waiting with
      | nil => right; simp [accept, pop, newer, confirms, waiting]
      | cons m rest =>
        exact .inl ⟨m, rest, same, rfl, by simp [accept, pop, newer, confirms, waiting]⟩
    · right; simp [accept, newer, confirms]
  · right; simp [accept_of_not_isNewer confirm (by simpa using newer)]

end ControlQueue

namespace Client

/-- What control messages can tell a client: whether it has a session, under which id, and what
ended it. -/
def standing (c : Client) : ClientState × Option ConnectionId × Option String × PeerSlot :=
  (c.state, c.id, c.closeReason, c.outbound)

theorem standing_applyControl {c d : Client} (same : c.standing = d.standing) (m : ControlMessage) :
    (c.applyControl m).standing = (d.applyControl m).standing := by
  simp only [standing, Prod.mk.injEq] at same
  obtain ⟨state, id, reason, outbound⟩ := same
  cases m <;> simp only [applyControl, close, state] <;> (try split) <;>
    simp [standing, state, id, reason, outbound]

theorem controlWatermark_applyControl (c : Client) (m : ControlMessage) :
    (c.applyControl m).controlWatermark = c.controlWatermark := by
  obtain ⟨_, _, _, _, applied⟩ := c.applyControl_updates m
  rw [applied]

theorem transport_applyControl (c : Client) (m : ControlMessage) :
    (c.applyControl m).transport = c.transport := by
  obtain ⟨_, _, _, _, applied⟩ := c.applyControl_updates m
  rw [applied]

theorem server_applyControl (c : Client) (m : ControlMessage) :
    (c.applyControl m).server = c.server := by
  obtain ⟨_, _, _, _, applied⟩ := c.applyControl_updates m
  rw [applied]

/-- A frame that asks for it is confirmed in any case, and applied if it is newer than the last
one. -/
theorem takeControl_eq (c : Client) {f : ControlFrame} (asks : f.confirms = true) :
    c.takeControl f =
      let c := (c.send (.control (.numbered f.order .confirm true))).2
      if f.order.isNewer c.controlWatermark then
        { c with controlWatermark := some f.order }.applyControl f.message
      else c := by
  simp only [takeControl, asks, if_true]

theorem controlWatermark_takeControl (c : Client) {f : ControlFrame} (asks : f.confirms = true) :
    (c.takeControl f).controlWatermark =
      if f.order.isNewer c.controlWatermark then some f.order else c.controlWatermark := by
  rw [takeControl_eq c asks]
  show Client.controlWatermark (if f.order.isNewer c.controlWatermark = true then _ else _) = _
  split
  · exact controlWatermark_applyControl _ f.message
  · rfl

theorem standing_takeControl (c : Client) {f : ControlFrame} (asks : f.confirms = true) :
    (c.takeControl f).standing =
      if f.order.isNewer c.controlWatermark then (c.applyControl f.message).standing
      else c.standing := by
  rw [takeControl_eq c asks]
  show Client.standing (if f.order.isNewer c.controlWatermark = true then _ else _) = _
  split
  · exact standing_applyControl (d := c) (by rfl) f.message
  · rfl

/-- All that a frame brings into the outbox is its confirmation. -/
theorem transport_takeControl (c : Client) {f : ControlFrame} (asks : f.confirms = true) :
    (c.takeControl f).transport =
      (c.send (.control (.numbered f.order .confirm true))).2.transport := by
  rw [takeControl_eq c asks]
  dsimp only
  split
  · exact transport_applyControl _ f.message
  · rfl

theorem server_takeControl (c : Client) {f : ControlFrame} (asks : f.confirms = true) :
    (c.takeControl f).server = c.server := by
  rw [takeControl_eq c asks]
  dsimp only
  split
  · exact server_applyControl _ f.message
  · rfl

/-- The datagram brings a control frame to the client's server. -/
def Carries (c : Client) (d : Datagram) (f : ControlFrame) : Prop :=
  d.target = c.server ∧ ∃ sequence, Wire.encode (.numbered sequence (.control f)) = .ok d.bytes

end Client

/-- A frame that was sent, with the place of its message among all that were ever queued. -/
structure PostedFrame where
  frame : ControlFrame
  place : Nat
  deriving DecidableEq

/-- A control queue and its client.  Everything but these two is a record of what has happened. -/
structure ControlLink where
  queue : ControlQueue := {}
  client : Client
  /-- Every message that was ever queued; equal messages are told apart by their places here. -/
  queued : List ControlMessage := []
  /-- The places of the messages that wait. -/
  places : List Nat := []
  sent : List PostedFrame := []
  /-- What the client has applied. -/
  applied : List PostedFrame := []
  /-- The confirmations that the client has given. -/
  replies : List ControlFrame := []
  /-- The places of the messages that were reported as confirmed. -/
  confirmed : List Nat := []
  /-- The places of the messages that gave way to another one. -/
  dropped : List Nat := []

namespace ControlLink

def push (x : ControlLink) (m : ControlMessage) : ControlLink :=
  { x with
    queue := x.queue.push m, queued := x.queued ++ [m], places := x.places ++ [x.queued.length] }

def replace (x : ControlLink) (m : ControlMessage) : ControlLink :=
  { x with
    queue := x.queue.replace m, queued := x.queued ++ [m], places := [x.queued.length]
    dropped := x.dropped ++ x.places }

/-- Sends the head, if there is one. -/
def send (x : ControlLink) : ControlLink :=
  { x with sent := x.sent ++ List.zipWith PostedFrame.mk x.queue.head?.toList x.places }

/-- The client takes in a frame. -/
def hear (x : ControlLink) (s : PostedFrame) : ControlLink :=
  { x with
    client := x.client.takeControl s.frame
    replies := x.replies ++ [.numbered s.frame.order .confirm true]
    applied :=
    if s.frame.order.isNewer x.client.controlWatermark then x.applied ++ [s] else x.applied }

/-- The queue takes in a confirmation. -/
def accept (x : ControlLink) (r : ControlFrame) : ControlLink :=
  match x.queue.accept r.order r.confirms with
  | (.accepted (some _), queue) =>
    { x with queue, places := x.places.tail, confirmed := x.confirmed ++ x.places.head?.toList }
  | (_, queue) => { x with queue }

inductive Step : ControlLink → ControlLink → Prop where
  | push (x : ControlLink) (m : ControlMessage) : Step x (x.push m)
  | replace (x : ControlLink) (m : ControlMessage) : Step x (x.replace m)
  | send (x : ControlLink) : Step x x.send
  | hear (x : ControlLink) (s : PostedFrame) (sent : s ∈ x.sent) : Step x (x.hear s)
  | accept (x : ControlLink) (r : ControlFrame) (given : r ∈ x.replies) : Step x (x.accept r)

/-- What a number of steps leads to. -/
inductive Run (x : ControlLink) : Nat → ControlLink → Prop where
  | start : Run x 0 x
  | next {n : Nat} {y z : ControlLink} : Run x n y → Step y z → Run x (n + 1) z

theorem Run.append {x y z : ControlLink} {n m : Nat} (first : Run x n y) (second : Run y m z) :
    Run x (n + m) z := by
  induction second with
  | start => exact first
  | next _ step ih => exact ih.next step

/-! ## Numbers and heads -/

/-- Messages are only added, and a number that is still up stands for the message that it stood
for. -/
structure Onward (x y : ControlLink) : Prop where
  queued : x.queued <+: y.queued
  head : x.queue.number.toNat < y.queue.number.toNat ∨
    x.queue.number = y.queue.number ∧ ∀ p ∈ x.places.head?, p ∈ y.places.head?

theorem Onward.refl (x : ControlLink) : Onward x x :=
  ⟨List.prefix_rfl, .inr ⟨rfl, fun _ h => h⟩⟩

theorem Onward.trans {x y z : ControlLink} (first : Onward x y) (second : Onward y z) :
    Onward x z where
  queued := first.queued.trans second.queued
  head := by
    rcases first.head with less | ⟨same, keeps⟩ <;> rcases second.head with less' | ⟨same', keeps'⟩
    · exact .inl (Nat.lt_trans less less')
    · exact .inl (same' ▸ less)
    · exact .inl (same ▸ less')
    · exact .inr ⟨same.trans same', fun p hp => keeps' p (keeps p hp)⟩

/-- A frame that shows a message of the queue, under a number that is used up or still up for it. -/
structure Shown (x : ControlLink) (s : PostedFrame) : Prop where
  asks : s.frame.confirms = true
  message : x.queued[s.place]? = some s.frame.message
  number : s.frame.order.toNat < x.queue.number.toNat ∨
    s.frame.order = x.queue.number ∧ s.place ∈ x.places.head?

theorem Shown.le {x : ControlLink} {s : PostedFrame} (h : x.Shown s) :
    s.frame.order.toNat ≤ x.queue.number.toNat := by
  rcases h.number with less | ⟨same, _⟩
  · omega
  · exact same ▸ Nat.le_refl _

theorem Shown.onward {x y : ControlLink} (on : Onward x y) {s : PostedFrame} (h : x.Shown s) :
    y.Shown s where
  asks := h.asks
  message := by
    have inside := (List.getElem?_eq_some_iff.1 h.message).1
    obtain ⟨more, queued⟩ := on.queued
    rw [← h.message, ← queued, List.getElem?_append_left inside]
  number := by
    have le := h.le
    rcases on.head with less | ⟨same, keeps⟩
    · exact .inl (by omega)
    · exact h.number.imp (same ▸ ·) fun ⟨up, head⟩ => ⟨up.trans same, keeps _ head⟩

/-- Every message that was ever queued waits, or was confirmed, or was dropped, and only one of
these. -/
structure Placed (x : ControlLink) : Prop where
  waiting : x.places.map (x.queued[·]?) = x.queue.waiting.map some
  fates : (x.confirmed ++ x.dropped ++ x.places).Perm (List.range x.queued.length)

namespace Placed

variable {x y : ControlLink}

theorem lt_length (h : x.Placed) {p : Nat} (waits : p ∈ x.places) : p < x.queued.length :=
  List.mem_range.1 (h.fates.subset (List.mem_append_right _ waits))

/-- A new message at the end leaves the others where they are. -/
theorem map_append (h : x.Placed) (m : ControlMessage) :
    x.places.map ((x.queued ++ [m])[·]?) = x.queue.waiting.map some := by
  rw [← h.waiting]
  exact List.map_congr_left fun p waits => List.getElem?_append_left (h.lt_length waits)

/-- What is on the wire shows the message at the first place. -/
theorem head (h : x.Placed) {f : ControlFrame} (up : f ∈ x.queue.head?) :
    ∃ p ∈ x.places.head?, x.Shown ⟨f, p⟩ ∧ f = .numbered x.queue.number f.message true := by
  have both := h.waiting
  cases waiting : x.queue.waiting with
  | nil => simp [ControlQueue.head?, waiting] at up
  | cons m rest =>
    obtain rfl : ControlFrame.numbered x.queue.number m true = f := by
      simpa [ControlQueue.head?, waiting] using up
    cases places : x.places with
    | nil => simp [places, waiting] at both
    | cons p ps =>
      rw [places, waiting] at both
      refine ⟨p, rfl, ⟨ControlFrame.confirms_numbered _ _ _, (List.cons.inj both).1,
        .inr ⟨rfl, ?_⟩⟩, rfl⟩
      rw [places]
      rfl

theorem push (h : x.Placed) (m : ControlMessage) : (x.push m).Placed where
  waiting := by simp [ControlLink.push, ControlQueue.push, h.map_append m]
  fates := by
    simpa [ControlLink.push, List.range_succ, ← List.append_assoc]
      using h.fates.append_right [x.queued.length]

theorem replace (h : x.Placed) (m : ControlMessage) : (x.replace m).Placed where
  waiting := by simp [ControlLink.replace, ControlQueue.replace]
  fates := by
    simpa [ControlLink.replace, List.range_succ, ← List.append_assoc]
      using h.fates.append_right [x.queued.length]

end Placed

/-- The head is sent with its place. -/
theorem send_cases {x : ControlLink} (h : x.Placed) :
    x.send = x ∨ ∃ s, x.Shown s ∧ s.place ∈ x.places.head? ∧ s.frame.order = x.queue.number ∧
      x.send = { x with sent := x.sent ++ [s] } := by
  cases up : x.queue.head? with
  | none => exact .inl (by simp [send, up])
  | some f =>
    obtain ⟨p, head, shown, numbered⟩ := h.head up
    obtain ⟨rest, places⟩ := List.head?_eq_some_iff.1 head
    exact .inr ⟨⟨f, p⟩, shown, head, congrArg ControlFrame.order numbered,
      by simp [send, up, places]⟩

/-- A confirmation takes the head and its place away, or changes nothing that waits. -/
theorem accept_cases {x : ControlLink} (h : x.Placed) (r : ControlFrame) :
    (∃ m rest p places, r.order = x.queue.number ∧ x.queue.waiting = m :: rest ∧
      x.places = p :: places ∧
      x.queued[p]? = some m ∧ (x.queue.accept r.order r.confirms).1 = .accepted (some m) ∧
      x.accept r = { x with
        queue := { waiting := rest, number := x.queue.number + 1, accepted := some r.order }
        places, confirmed := x.confirmed ++ [p] }) ∨
    ((∀ m, (x.queue.accept r.order r.confirms).1 ≠ .accepted (some m)) ∧
      ∃ queue : ControlQueue, queue.waiting = x.queue.waiting ∧ queue.number = x.queue.number ∧
        x.accept r = { x with queue }) := by
  rcases x.queue.accept_cases r.order r.confirms with
    ⟨m, rest, same, waiting, taken⟩ | ⟨none, waiting, number⟩
  · cases places : x.places with
    | nil => simpa [places, waiting] using h.waiting
    | cons p ps =>
      have place : x.queued[p]? = some m := by
        have both := h.waiting
        rw [places, waiting] at both
        exact (List.cons.inj both).1
      exact .inl ⟨m, rest, p, ps, same, waiting, rfl, place, by rw [taken],
        by simp [accept, taken, places]⟩
  · refine .inr ⟨none, (x.queue.accept r.order r.confirms).2, waiting, number, ?_⟩
    unfold accept
    split
    · next m _ taken => exact absurd (congrArg Prod.fst taken) (none m)
    · next taken => rw [taken]

theorem Placed.accept {x : ControlLink} (h : x.Placed) (r : ControlFrame) :
    (x.accept r).Placed := by
  rcases accept_cases h r with
    ⟨m, rest, p, places, _, waiting, placed, place, _, next⟩ | ⟨_, queue, waiting, _, next⟩
  · rw [next]
    constructor
    · have both := h.waiting
      rw [placed, waiting] at both
      exact (List.cons.inj both).2
    · refine List.Perm.trans ?_ h.fates
      rw [placed, List.append_assoc, List.append_assoc, List.append_assoc]
      exact (List.perm_append_comm_assoc [p] x.dropped places).append_left x.confirmed
  · rw [next]
    exact ⟨waiting ▸ h.waiting, h.fates⟩

theorem step_placed {x y : ControlLink} (step : Step x y) (h : x.Placed) : y.Placed := by
  cases step with
  | push m => exact h.push m
  | replace m => exact h.replace m
  | accept r => exact h.accept r
  | _ => exact ⟨h.waiting, h.fates⟩

/-- The number of the head goes up by one at most, and never without a new head. -/
theorem step_onward {x y : ControlLink} (step : Step x y) (h : x.Placed)
    (low : x.queue.number.toNat < halfRange) :
    Onward x y ∧ y.queue.number.toNat ≤ x.queue.number.toNat + 1 := by
  have next := OrderNumber.toNat_succ low
  cases step with
  | push m =>
    refine ⟨⟨List.prefix_append _ _, .inr ⟨rfl, fun p hp => ?_⟩⟩, Nat.le_succ _⟩
    simp only [push, List.head?_append]
    rw [Option.mem_def.1 hp]
    rfl
  | replace m =>
    cases waiting : x.queue.waiting with
    | nil =>
      have places : x.places = [] := by simpa [waiting] using h.waiting
      refine ⟨⟨List.prefix_append _ _, .inr ⟨?_, by simp [places]⟩⟩, ?_⟩ <;>
        simp [replace, ControlQueue.replace, waiting]
    | cons _ _ =>
      have number : (x.replace m).queue.number = x.queue.number + 1 := by
        simp [replace, ControlQueue.replace, waiting]
      exact ⟨⟨List.prefix_append _ _, .inl (by rw [number]; omega)⟩, by rw [number]; omega⟩
  | send => exact ⟨⟨List.prefix_rfl, .inr ⟨rfl, fun _ hp => hp⟩⟩, Nat.le_succ _⟩
  | hear s => exact ⟨⟨List.prefix_rfl, .inr ⟨rfl, fun _ hp => hp⟩⟩, Nat.le_succ _⟩
  | accept r =>
    rcases accept_cases h r with
      ⟨m, rest, p, places, _, _, _, _, _, taken⟩ | ⟨_, queue, _, number, taken⟩
    · rw [taken]
      exact ⟨⟨List.prefix_rfl, .inl (by simp only [next]; omega)⟩, by simp only [next]; omega⟩
    · rw [taken]
      exact ⟨⟨List.prefix_rfl, .inr ⟨number.symm, fun _ hp => hp⟩⟩, by simp only [number]; omega⟩

/-! ## What the client has heard -/

/-- What holds of the frames and of the client that heard them. -/
structure Faithful (x : ControlLink) : Prop where
  placed : x.Placed
  shown : ∀ s ∈ x.sent, x.Shown s
  heard : ∀ s ∈ x.applied, s ∈ x.sent
  rising : x.applied.Pairwise fun s t => s.frame.order.toNat < t.frame.order.toNat
  watermark : x.client.controlWatermark = x.applied.getLast?.map (·.frame.order)
  /-- Nothing is confirmed before it or something later is applied. -/
  replied : ∀ r ∈ x.replies, ∃ s ∈ x.applied, r.order.toNat ≤ s.frame.order.toNat
  confirmed : ∀ p ∈ x.confirmed, ∃ s ∈ x.applied, s.place = p

namespace Faithful

variable {x y : ControlLink}

/-- Steps that only concern the queue. -/
theorem queues (h : x.Faithful) (on : Onward x y) (placed : y.Placed) (client : y.client = x.client)
    (sent : y.sent = x.sent) (applied : y.applied = x.applied) (replies : y.replies = x.replies)
    (confirmed : ∀ p ∈ y.confirmed, ∃ s ∈ x.applied, s.place = p) : y.Faithful where
  placed := placed
  shown s mem := (h.shown s (sent ▸ mem)).onward on
  heard := by rw [applied, sent]; exact h.heard
  rising := applied ▸ h.rising
  watermark := by rw [client, applied]; exact h.watermark
  replied := by rw [replies, applied]; exact h.replied
  confirmed := applied ▸ confirmed

/-- What was confirmed under the number of the head is the head, and the client has applied it. -/
theorem applied_head (h : x.Faithful) {r : ControlFrame} (given : r ∈ x.replies)
    (same : r.order = x.queue.number) :
    ∃ s ∈ x.applied, s.frame.order = x.queue.number ∧ s.place ∈ x.places.head? := by
  obtain ⟨s, applied, later⟩ := h.replied r given
  rcases (h.shown s (h.heard s applied)).number with less | ⟨up, head⟩
  · rw [same] at later
    omega
  · exact ⟨s, applied, up, head⟩

theorem send (h : x.Faithful) (on : Onward x x.send) (placed : x.send.Placed) :
    x.send.Faithful := by
  rcases send_cases h.placed with idle | ⟨new, shown, _, _, sends⟩
  · rwa [idle]
  · rw [sends] at on placed ⊢
    refine ⟨placed, fun s mem => ?_, fun s hs => List.mem_append_left _ (h.heard s hs), h.rising,
      h.watermark, h.replied, h.confirmed⟩
    rcases List.mem_append.1 mem with old | last
    · exact (h.shown s old).onward on
    · rw [List.mem_singleton.1 last]
      exact shown.onward on

/-- A frame is newer than the watermark if its number is larger than all that were applied. -/
theorem isNewer_iff (h : x.Faithful) (low : x.queue.number.toNat < halfRange) {s : PostedFrame}
    (sent : s ∈ x.sent) :
    s.frame.order.isNewer x.client.controlWatermark = true ↔
      ∀ t ∈ x.applied, t.frame.order.toNat < s.frame.order.toNat := by
  have small : ∀ t ∈ x.sent, t.frame.order.toNat < halfRange := fun t ht => by
    have := (h.shown t ht).le
    omega
  have rising := h.rising
  rw [h.watermark]
  rcases x.applied.eq_nil_or_concat with none | ⟨before, last, all⟩
  · simp [none]
  · rw [List.concat_eq_append] at all
    rw [all, List.pairwise_append] at rising
    have heard : last ∈ x.sent := h.heard last (by simp [all])
    simp only [all, List.getLast?_append, List.getLast?_singleton, Option.some_or, Option.map_some,
      OrderNumber.isNewer_some, OrderNumber.after_of_lt (small s sent) (small last heard),
      decide_eq_true_eq]
    constructor
    · intro newer t mem
      rcases List.mem_append.1 mem with old | new
      · have := rising.2.2 t old last (List.mem_singleton_self last)
        omega
      · rwa [List.mem_singleton.1 new]
    · intro all
      exact all last (by simp)

/-- A frame is applied, and its number the new watermark, exactly if it is larger than all that were
applied. -/
theorem hear_cases (h : x.Faithful) (low : x.queue.number.toNat < halfRange) {s : PostedFrame}
    (sent : s ∈ x.sent) :
    ((x.hear s).applied = x.applied ++ [s] ∧
      (x.hear s).client.controlWatermark = some s.frame.order ∧
      ∀ t ∈ x.applied, t.frame.order.toNat < s.frame.order.toNat) ∨
    ((x.hear s).applied = x.applied ∧
      (x.hear s).client.controlWatermark = x.client.controlWatermark ∧
      ∃ t ∈ x.applied, s.frame.order.toNat ≤ t.frame.order.toNat) := by
  have mark := x.client.controlWatermark_takeControl (h.shown s sent).asks
  by_cases newer : s.frame.order.isNewer x.client.controlWatermark = true
  · exact .inl ⟨if_pos newer, mark.trans (if_pos newer), (h.isNewer_iff low sent).1 newer⟩
  · exact .inr ⟨if_neg newer, mark.trans (if_neg newer),
      by simpa using mt (h.isNewer_iff low sent).2 newer⟩

theorem hear (h : x.Faithful) (low : x.queue.number.toNat < halfRange) {s : PostedFrame}
    (sent : s ∈ x.sent) (on : Onward x (x.hear s)) (placed : (x.hear s).Placed) :
    (x.hear s).Faithful := by
  have shown : ∀ t ∈ x.sent, (x.hear s).Shown t := fun t ht => (h.shown t ht).onward on
  rcases h.hear_cases low sent with ⟨applied, mark, larger⟩ | ⟨applied, mark, later⟩
  · have kept : ∀ t ∈ x.applied, t ∈ (x.hear s).applied :=
      fun t ht => applied ▸ List.mem_append_left _ ht
    have last : s ∈ (x.hear s).applied := by simp [applied]
    refine ⟨placed, shown, fun t ht => ?_, ?_, by simp [applied, mark], fun r hr => ?_,
      fun p hp => ?_⟩
    · rcases List.mem_append.1 (applied ▸ ht) with old | new
      · exact h.heard t old
      · rwa [List.mem_singleton.1 new]
    · rw [applied]
      refine List.pairwise_append.2 ⟨h.rising, List.pairwise_singleton _ _, fun t ht u hu => ?_⟩
      rw [List.mem_singleton.1 hu]
      exact larger t ht
    · rcases List.mem_append.1 hr with old | new
      · obtain ⟨t, ht, after⟩ := h.replied r old
        exact ⟨t, kept t ht, after⟩
      · rw [List.mem_singleton.1 new]
        exact ⟨s, last, Nat.le_refl _⟩
    · obtain ⟨t, ht, place⟩ := h.confirmed p hp
      exact ⟨t, kept t ht, place⟩
  · refine ⟨placed, shown, applied ▸ h.heard, applied ▸ h.rising,
      by rw [applied, mark, h.watermark], fun r hr => ?_, applied ▸ h.confirmed⟩
    rw [applied]
    rcases List.mem_append.1 hr with old | new
    · exact h.replied r old
    · rw [List.mem_singleton.1 new]
      exact later

theorem accept (h : x.Faithful) {r : ControlFrame} (on : Onward x (x.accept r))
    (given : r ∈ x.replies) :
    (x.accept r).Faithful := by
  have placed := h.placed.accept r
  rcases accept_cases h.placed r with
    ⟨m, rest, p, places, same, _, at', _, _, next⟩ | ⟨_, queue, _, _, next⟩
  · rw [next] at on placed ⊢
    refine h.queues on placed rfl rfl rfl rfl fun q hq => ?_
    rcases List.mem_append.1 hq with old | new
    · exact h.confirmed q old
    · obtain ⟨s, applied, _, head⟩ := h.applied_head given same
      refine ⟨s, applied, ?_⟩
      simpa [at', List.mem_singleton.1 new, eq_comm] using head
  · rw [next] at on placed ⊢
    exact h.queues on placed rfl rfl rfl rfl h.confirmed

end Faithful

theorem step_faithful {x y : ControlLink} (step : Step x y) (h : x.Faithful)
    (low : x.queue.number.toNat < halfRange) :
    y.Faithful := by
  have on := (step_onward step h.placed low).1
  have placed := step_placed step h.placed
  cases step with
  | push m => exact h.queues on placed rfl rfl rfl rfl h.confirmed
  | replace m => exact h.queues on placed rfl rfl rfl rfl h.confirmed
  | send => exact h.send on placed
  | hear s sent => exact h.hear low sent on placed
  | accept r given => exact h.accept on given

/-- Every step of a short run keeps what is known, and uses up one number at most. -/
theorem Run.faithful {x y : ControlLink} {n : Nat} (run : Run x n y) (h : x.Faithful)
    (few : x.queue.number.toNat + n ≤ halfRange) :
    y.Faithful ∧ Onward x y ∧ y.queue.number.toNat ≤ x.queue.number.toNat + n := by
  induction run with
  | start => exact ⟨h, .refl x, Nat.le_refl _⟩
  | next _ step ih =>
    obtain ⟨faithful, on, le⟩ := ih (by omega)
    obtain ⟨on', le'⟩ := step_onward step faithful.placed (by omega)
    exact ⟨step_faithful step faithful (by omega), on.trans on', by omega⟩

/-! ## Queues that are never replaced -/

/-- While nothing was dropped, the places, the numbers and what was applied all count the same
messages. -/
structure Unbroken (x : ControlLink) : Prop where
  line : x.confirmed ++ x.places = List.range x.queued.length
  number : x.queue.number.toNat = x.confirmed.length
  numbered : ∀ s ∈ x.sent, s.frame.order.toNat = s.place
  applied : x.applied.map (·.place) = List.range x.applied.length

namespace Unbroken

variable {x : ControlLink}

theorem head_eq (h : x.Unbroken) {p : Nat} (head : p ∈ x.places.head?) :
    p = x.queue.number.toNat := by
  obtain ⟨rest, places⟩ := List.head?_eq_some_iff.1 head
  have here : (x.confirmed ++ x.places)[x.confirmed.length]? = some p := by simp [places]
  rw [h.line] at here
  rw [h.number]
  simpa [eq_comm] using (List.getElem?_eq_some_iff.1 here).2

/-- The client is one message ahead of the confirmations at most. -/
theorem length_applied (h : x.Unbroken) (f : x.Faithful) :
    x.confirmed.length ≤ x.applied.length ∧ x.applied.length ≤ x.confirmed.length + 1 := by
  constructor
  · cases size : x.confirmed.length with
    | zero => omega
    | succ n =>
      have confirmed : n ∈ x.confirmed := by
        have line : x.confirmed = (List.range x.queued.length).take x.confirmed.length := by
          simp [← h.line]
        have room := congrArg List.length h.line
        simp only [List.length_append, List.length_range] at room
        rw [line, List.take_range, List.mem_range]
        omega
      obtain ⟨s, applied, place⟩ := f.confirmed n confirmed
      have : s.place ∈ x.applied.map (·.place) := List.mem_map_of_mem applied
      rw [h.applied, place, List.mem_range] at this
      omega
  · cases size : x.applied.length with
    | zero => omega
    | succ n =>
      have last : n ∈ x.applied.map (·.place) := by
        rw [h.applied, List.mem_range]
        omega
      obtain ⟨s, applied, place⟩ := List.mem_map.1 last
      have sent := f.heard s applied
      have := (f.shown s sent).le
      have := h.numbered s sent
      have := h.number
      omega

/-- The applied messages are the first of those that were queued. -/
theorem prefix_queued (h : x.Unbroken) (f : x.Faithful) :
    x.applied.map (·.frame.message) <+: x.queued := by
  rw [List.prefix_iff_getElem?]
  intro i inside
  rw [List.length_map] at inside
  have place : x.applied[i].place = i := by
    have := congrArg (·[i]?) h.applied
    simpa [inside] using this
  rw [List.getElem_map, ← (f.shown _ (f.heard _ (List.getElem_mem inside))).message, place]

end Unbroken

theorem step_unbroken {x y : ControlLink} (step : Step x y) (f : x.Faithful)
    (low : x.queue.number.toNat < halfRange) (whole : y.dropped = [])
    (h : x.dropped = [] → x.Unbroken) : y.Unbroken := by
  cases step with
  | push m =>
    have h := h whole
    refine ⟨?_, h.number, h.numbered, h.applied⟩
    simp [push, ← List.append_assoc, h.line, List.range_succ]
  | replace m =>
    obtain ⟨dropped, places⟩ := List.append_eq_nil_iff.1 whole
    have h := h dropped
    have waiting : x.queue.waiting = [] := by
      have none := f.placed.waiting
      rw [places] at none
      exact List.map_eq_nil_iff.1 none.symm
    refine ⟨?_, ?_, h.numbered, h.applied⟩
    · have line := h.line
      rw [places, List.append_nil] at line
      simp [replace, line, List.range_succ]
    · simpa [replace, ControlQueue.replace, waiting] using h.number
  | send =>
    have h := h whole
    rcases send_cases f.placed with idle | ⟨new, _, head, up, sends⟩
    · rwa [idle]
    · rw [sends]
      refine ⟨h.line, h.number, fun s mem => ?_, h.applied⟩
      rcases List.mem_append.1 mem with old | last
      · exact h.numbered s old
      · rw [List.mem_singleton.1 last, up, h.head_eq head]
  | hear s sent =>
    have h := h whole
    refine ⟨h.line, h.number, h.numbered, ?_⟩
    rcases f.hear_cases low sent with ⟨applied, _, larger⟩ | ⟨applied, _, _⟩
    · have count := h.length_applied f
      have le := (f.shown s sent).le
      have place := h.numbered s sent
      have number := h.number
      -- All but the last of the queue's messages is applied already, and the frame is newer than
      -- these.
      have next : s.place = x.applied.length := by
        cases size : x.applied.length with
        | zero => omega
        | succ n =>
          have last : n ∈ x.applied.map (·.place) := by
            rw [h.applied, List.mem_range]
            omega
          obtain ⟨t, mem, at'⟩ := List.mem_map.1 last
          have := larger t mem
          have := h.numbered t (f.heard t mem)
          omega
      simp [applied, h.applied, next, List.range_succ]
    · rw [applied]
      exact h.applied
  | accept r =>
    rcases accept_cases f.placed r with
      ⟨m, rest, p, places, _, _, at', _, _, next⟩ | ⟨_, queue, _, number, next⟩
    · rw [next] at whole ⊢
      have h := h whole
      refine ⟨?_, ?_, h.numbered, h.applied⟩
      · simpa [at'] using h.line
      · simp [OrderNumber.toNat_succ low, h.number]
    · rw [next] at whole ⊢
      have h := h whole
      exact ⟨h.line, by simp [number, h.number], h.numbered, h.applied⟩

theorem Run.unbroken {x y : ControlLink} {n : Nat} (run : Run x n y) (f : x.Faithful)
    (few : x.queue.number.toNat + n ≤ halfRange) (h : x.dropped = [] → x.Unbroken)
    (whole : y.dropped = []) :
    y.Unbroken := by
  induction run with
  | start => exact h whole
  | next run step ih =>
    obtain ⟨faithful, _, le⟩ := run.faithful f (by omega)
    exact step_unbroken step faithful (by omega) whole (ih (by omega))

/-! ## Runs of a fresh queue -/

/-- Nothing has happened yet. -/
def fresh (c : Client) : ControlLink := { client := c }

theorem fresh_faithful {c : Client} (unheard : c.controlWatermark = none) : (fresh c).Faithful where
  placed := ⟨rfl, List.Perm.refl _⟩
  shown := nofun
  heard := nofun
  rising := .nil
  watermark := unheard
  replied := nofun
  confirmed := nofun

theorem fresh_unbroken (c : Client) : (fresh c).Unbroken where
  line := rfl
  number := rfl
  numbered := nofun
  applied := rfl

/-- Whatever the network does, the client stands where the messages that it has applied have brought
it, one by one. -/
theorem standing_applied {c : Client} {x : ControlLink} {n : Nat}
    (unheard : c.controlWatermark = none) (run : Run (fresh c) n x) (few : n ≤ halfRange) :
    x.client.standing =
      (x.applied.foldl (fun c s => c.applyControl s.frame.message) c).standing := by
  induction run with
  | start => rfl
  | @next n y z run step ih =>
    have ih := ih (by omega)
    have f := (run.faithful (fresh_faithful unheard) (by show 0 + _ ≤ _; omega)).1
    cases step with
    | hear s sent =>
      have taken := y.client.standing_takeControl (f.shown s sent).asks
      simp only [hear]
      split at taken
      next newer =>
        rw [if_pos newer, List.foldl_append, taken]
        exact Client.standing_applyControl ih s.frame.message
      next stale =>
        rw [if_neg stale, taken, ih]
    | accept r =>
      rcases accept_cases f.placed r with ⟨_, _, _, _, _, _, _, _, _, next⟩ | ⟨_, _, _, _, next⟩ <;>
        rw [next] <;>
        exact ih
    | _ => exact ih

/-- The confirmations of a client that was `c` at first are what it has put into its outbox.  The
link may have refused some; those that it took are there in their order, and nothing else is. -/
structure Answered (c : Client) (x : ControlLink) : Prop where
  server : x.client.server = c.server
  refuses : x.client.transport.refuses = c.transport.refuses
  sent : ∃ outbox given, x.client.transport.sent = c.transport.sent ++ outbox ∧
    List.Forall₂ c.Carries outbox given ∧ given.Sublist x.replies ∧
    ((∀ d, c.transport.refuses d = false) → given = x.replies)

theorem Answered.fresh (c : Client) : (fresh c).Answered c :=
  ⟨rfl, rfl, [], [], by simp [ControlLink.fresh], .nil, .slnil, fun _ => rfl⟩

theorem Answered.hear {c : Client} {x : ControlLink} (h : x.Answered c) {s : PostedFrame}
    (asks : s.frame.confirms = true) : (x.hear s).Answered c := by
  let reply : ControlFrame := .numbered s.frame.order .confirm true
  let packet : Packet := .numbered x.client.sequence (.control reply)
  obtain ⟨outbox, given, sent, carried, among, all⟩ := h.sent
  obtain ⟨bytes, encoded⟩ : ∃ bytes, Wire.encode packet = .ok bytes := Wire.encode_control _ nofun
  have transport : (x.hear s).client.transport =
      (x.client.transport.send x.client.server packet).2 := x.client.transport_takeControl asks
  refine ⟨(x.client.server_takeControl asks).trans h.server, ?_, ?_⟩
  · rw [transport, Transport.refuses_send, h.refuses]
  · cases refused : x.client.transport.refuses ⟨x.client.server, bytes⟩ with
    | true =>
      rw [transport, Transport.send_of_refused encoded refused]
      refine ⟨outbox, given, sent, carried, among.trans (List.sublist_append_left _ _),
        fun clear => ?_⟩
      rw [h.refuses, clear] at refused
      cases refused
    | false =>
      rw [transport, Transport.send_of_encode encoded refused]
      refine ⟨outbox ++ [⟨x.client.server, bytes⟩], given ++ [reply], by simp [sent], ?_,
        among.append_right _, fun clear => congrArg (· ++ [reply]) (all clear)⟩
      exact List.rel_append carried (.cons ⟨h.server, _, encoded⟩ .nil)

/-- Whatever the network does, the replies on record are those that left the client. -/
theorem Run.answered {c : Client} {x : ControlLink} {n : Nat} (unheard : c.controlWatermark = none)
    (run : Run (fresh c) n x) (few : n ≤ halfRange) : x.Answered c := by
  induction run with
  | start => exact .fresh c
  | next run step ih =>
    have ih := ih (by omega)
    have f := (run.faithful (fresh_faithful unheard) (by show 0 + _ ≤ _; omega)).1
    cases step with
    | hear s sent => exact ih.hear (f.shown s sent).asks
    | accept r =>
      rcases accept_cases f.placed r with ⟨_, _, _, _, _, _, _, _, _, next⟩ | ⟨_, _, _, _, next⟩ <;>
        rw [next] <;> exact ⟨ih.server, ih.refuses, ih.sent⟩
    | _ => exact ⟨ih.server, ih.refuses, ih.sent⟩

/-- In fewer steps than half the circle has numbers: the client applies frames in the order of their
numbers and none twice; a number is never up for two messages; what a confirmation reports is the
head, which was applied and not yet reported; what was dropped is never reported; and unless
something was dropped, what was applied are the first messages of the queue, one more than were
reported at most.  What is on record as applied and as confirmed is what the client itself has come
to and sent. -/
theorem applied_before_confirmed {c : Client} {x y : ControlLink} {n m : Nat}
    (unheard : c.controlWatermark = none) (before : Run (fresh c) n x) (after : Run x m y)
    (few : n + m < halfRange) :
    (y.applied.Pairwise fun s t => s.frame.order.toNat < t.frame.order.toNat) ∧
    (∀ f ∈ x.queue.head?, ∀ g ∈ y.queue.head?, f.order = g.order →
      f = g ∧ x.places.head? = y.places.head?) ∧
    (∀ r ∈ y.replies, ∀ told, (y.queue.accept r.order r.confirms).1 = .accepted (some told) →
      y.queue.waiting.head? = some told ∧ ∃ p ∈ y.places.head?, p ∉ y.confirmed ∧
        (y.accept r).confirmed = y.confirmed ++ [p] ∧ ∃ s ∈ y.applied,
          s.place = p ∧ s.frame.message = told) ∧
    (∀ p ∈ y.dropped, p ∉ y.confirmed) ∧
    (y.dropped = [] → y.applied.map (·.frame.message) <+: y.queued ∧
      y.confirmed.length ≤ y.applied.length ∧ y.applied.length ≤ y.confirmed.length + 1) ∧
    y.client.standing = (y.applied.foldl (fun c s => c.applyControl s.frame.message) c).standing ∧
    y.Answered c := by
  have zero : (fresh c).queue.number.toNat = 0 := rfl
  obtain ⟨fx, _, lx⟩ := before.faithful (fresh_faithful unheard) (by omega)
  obtain ⟨fy, on, _⟩ := after.faithful fx (by omega)
  have run := before.append after
  have whole := run.unbroken (fresh_faithful unheard) (by omega) fun _ => fresh_unbroken c
  have apart := List.nodup_append.1 (fy.placed.fates.nodup_iff.2 List.nodup_range)
  have apart' := List.nodup_append.1 apart.1
  refine ⟨fy.rising, fun f hf g hg same => ?_, fun r given told confirms => ?_,
    fun p drop conf => ?_, fun none => ?_, standing_applied unheard run (by omega),
    run.answered unheard (by omega)⟩
  · obtain ⟨p, head, shown, numbered⟩ := fx.placed.head hf
    obtain ⟨q, head', shown', numbered'⟩ := fy.placed.head hg
    have up : x.queue.number = y.queue.number := by rw [numbered, numbered'] at same; exact same
    rcases on.head with less | ⟨_, keeps⟩
    · rw [up] at less
      omega
    · have kept := keeps p head
      obtain rfl : p = q := Option.mem_unique kept head'
      have message : f.message = g.message :=
        Option.some.inj ((shown.onward on).message.symm.trans shown'.message)
      exact ⟨by rw [numbered, numbered', up, message], head.trans kept.symm⟩
  · rcases accept_cases fy.placed r with
      ⟨m, rest, p, places, up, waiting, at', place, taken, next⟩ | ⟨keeps, _, _, _, _⟩
    · have same : m = told := by simpa [taken] using confirms
      obtain ⟨s, applied, _, head⟩ := fy.applied_head given up
      have here : s.place = p := by simpa [at', eq_comm] using head
      refine ⟨by simp [waiting, same], p, by simp [at'], fun twice => ?_, by rw [next], s, applied,
        here, ?_⟩
      · exact apart.2.2 p (List.mem_append_left _ twice) p (by simp [at']) rfl
      · have message := (fy.shown s (fy.heard s applied)).message
        rw [here, place, same] at message
        exact (Option.some.inj message).symm
    · exact absurd confirms (keeps told)
  · exact apart'.2.2 p conf p drop rfl
  · exact ⟨(whole none).prefix_queued fy, (whole none).length_applied fy⟩

/-- The first message is dropped after it was applied and before it is confirmed; its frame and its
confirmation come late, and the kick that replaced it is applied and ready to be confirmed. -/
theorem applied_before_confirmed_replaced :
    let c : Client := { config := {}, server := ⟨.v4 2130706433, 4000⟩, state := .registering }
    let first : PostedFrame := ⟨.numbered 0 (.registered 1) true, 0⟩
    let kick : PostedFrame := ⟨.numbered 1 (.kick "bye") true, 2⟩
    ∃ x y : ControlLink, c.controlWatermark = none ∧ Run (fresh c) 6 x ∧ Run x 3 y ∧
      6 + 3 < halfRange ∧
      x.queue.head? = some kick.frame ∧ y.queue.head? = some kick.frame ∧
      x.places.head? = y.places.head? ∧
      y.dropped = [0, 1] ∧ y.confirmed = [] ∧ y.applied = [first, kick] ∧
      (y.queue.accept 0 true).1 = .stale ∧
      (y.queue.accept 1 true).1 = .accepted (some (.kick "bye")) ∧
      (∃ s ∈ y.applied, s.place = 2 ∧ s.frame.message = .kick "bye") ∧
      y.client.closeReason = some "bye" ∧
      ∃ outbox, y.client.transport.sent = outbox ∧
        List.Forall₂ c.Carries outbox ([0, 0, 1].map (.numbered · .confirm true)) := by
  intro c first kick
  have queued := ((Run.start (x := fresh c)).next (.push _ (.registered 1))).next (.send _)
  have heard := (queued.next (.push _ .servicesReady)).next (.hear _ first (by decide))
  have before := (heard.next (.replace _ (.kick "bye"))).next (.send _)
  let x := ((((fresh c).push (.registered 1)).send.push .servicesReady).hear first).replace
    (.kick "bye") |>.send
  have late := (Run.start (x := x)).next (.accept _ (.numbered 0 .confirm true) (by decide))
  have after := (late.next (.hear _ first (by decide))).next (.hear _ kick (by decide))
  obtain ⟨_, single, reported, _, _, standing, answered⟩ :=
    applied_before_confirmed rfl before after (by decide)
  obtain ⟨_, p, head, _, _, s, applied, place, message⟩ :=
    reported (.numbered 1 .confirm true) (by decide) (.kick "bye") (by decide)
  have here : p = 2 := (Option.some.inj head).symm
  obtain ⟨outbox, given, sent, carried, _, all⟩ := answered.sent
  obtain rfl := all fun _ => rfl
  exact ⟨_, _, rfl, before, after, by decide, rfl, rfl, (single _ rfl _ rfl rfl).2, rfl, rfl,
    by decide, by decide, by decide, ⟨s, applied, place.trans here, message⟩,
    (congrArg (·.2.2.1) standing).trans (by decide), outbox, sent, carried⟩

end ControlLink
end DatagramSession
