import DatagramSession.Proofs.OneWay
import Mathlib.Data.List.Flatten
import Mathlib.Data.List.Sort
/-!
# Unreliable commands of one direction of a session

A `Stream` is one direction of a session beside the unreliable commands that were pushed and the
envelopes that arrived, each with the calls that it gave rise to.  The calls of an unreliable
command come with those of the one envelope that carries it, all of them or none, and never after a
call of a later envelope: main statement `handed_once_or_never`.
-/
namespace DatagramSession

/-- The unreliable command of a call to one handler. -/
def Call.unreliableTo? {η : Type} [DecidableEq η] (h : η) : Call η → Option Command
  | .unreliable listener c => if listener = h then some c else none
  | _ => none

/-- The unreliable commands that one handler was handed. -/
def handedUnreliable {η : Type} [DecidableEq η] (h : η) (calls : List (Call η)) : List Command :=
  calls.filterMap (Call.unreliableTo? h)

section
variable {η : Type} [DecidableEq η]

@[simp] theorem handedUnreliable_nil (h : η) : handedUnreliable h [] = [] := rfl

@[simp] theorem handedUnreliable_append (h : η) (first second : List (Call η)) :
    handedUnreliable h (first ++ second) = handedUnreliable h first ++ handedUnreliable h second :=
  List.filterMap_append

/-- A handler is handed each unreliable command of a new envelope once for each of its
registrations. -/
theorem handedUnreliable_calls (h : η) (e : Envelope) (watermark : Option OrderNumber)
    (handlers : List η) :
    handedUnreliable h (e.calls watermark handlers) =
      e.unreliable.flatMap (List.replicate (handlers.count h)) := by
  have guaranteed :
      handedUnreliable h ((e.freshCommands watermark).flatMap fun c =>
        handlers.map (Call.guaranteed · c)) = [] :=
    filterMap_handAll_eq_nil (fun _ _ => rfl) _ _
  have ack : handedUnreliable h (if e.asksForAck then [Call.acknowledge (.ack e.order)] else []) =
      [] := by
    split <;> rfl
  have unreliable :
      handedUnreliable h (e.unreliable.flatMap fun c => handlers.map (Call.unreliable · c))
        = e.unreliable.flatMap (List.replicate (handlers.count h)) := by
    have own (listener : η) (c : Command) :
        Call.unreliableTo? h (.unreliable listener c) = if listener = h ∧
        true = true then some c else none := by
      simp [Call.unreliableTo?]
    have all := filterMap_handAll own e.unreliable handlers
    rwa [List.filter_eq_self.2 fun _ _ => rfl] at all
  rw [Envelope.calls, handedUnreliable_append, handedUnreliable_append, guaranteed, ack, unreliable,
    List.append_nil, List.nil_append]

end

/-- An envelope that has arrived, and the calls that it gave rise to there. -/
structure Arrival (η : Type) where
  mail : Mail
  calls : List (Call η)

/-- One direction of a session, beside its past. -/
structure Stream (η σ : Type) where
  link : OneWay η σ
  /-- The unreliable commands that were pushed. -/
  pushed : List Command := []
  /-- The envelopes that have arrived, copies and late ones included. -/
  arrivals : List (Arrival η) := []

namespace Stream

variable {η σ : Type}

/-- An envelope arrives, with the calls of a new one or with none. -/
def deliver (x : Stream η σ) (r : Receiver η σ) (m : Mail) : Stream η σ :=
  let calls :=
    if m.envelope.order.isNewer x.link.receiving.inbound.watermark
    then m.envelope.calls x.link.receiving.inbound.watermark (r.handlers x.link.listeners) else []
  { x with link := x.link.deliver r m, arrivals := x.arrivals ++ [⟨m, calls⟩] }

/-- What may happen next is what may happen to the session. -/
inductive Step (r : Receiver η σ) : Stream η σ → Stream η σ → Prop where
  | push (x : Stream η σ) (c : Command) :
      Step r x { x with
        link := { x.link with sending := x.link.sending.push c }
        pushed := if c.isGuaranteed then x.pushed else x.pushed ++ [c] }
  | keepAlive (x : Stream η σ) :
      Step r x { x with link := { x.link with sending := x.link.sending.keepAlive } }
  | flush (x : Stream η σ) :
      Step r x { x with link := { x.link with sending := x.link.sending.flush } }
  | deliver (x : Stream η σ) (m : Mail) (built : m ∈ x.link.sending.mail)
      (near : Windowed (x.link.countersOf m)) :
      Step r x (x.deliver r m)
  | confirm (x : Stream η σ) (m : Mail) (given : m ∈ x.link.receiving.acknowledged)
      (near : Windowed (x.link.ackCountersOf m)) : Step r x { x with link := x.link.confirm m }
  /-- Listeners come and go. -/
  | listen (x : Stream η σ) (s : σ) : Step r x { x with link := { x.link with listeners := s } }

/-- What a run reaches from two fresh parties while the listeners stay in a certain condition. -/
inductive Run (r : Receiver η σ) (steady : σ → Prop) (s₀ : σ) : Stream η σ → Prop where
  | start : steady s₀ → Run r steady s₀ { link := { listeners := s₀ } }
  | next {x y : Stream η σ} : Run r steady s₀ x → Step r x y → steady y.link.listeners →
      Run r steady s₀ y

/-- The calls that the copies of an envelope gave rise to. -/
def callsOf (x : Stream η σ) (m : Mail) : List (Call η) :=
  (x.arrivals.filter (·.mail = m)).flatMap Arrival.calls

theorem Step.link {r : Receiver η σ} {x y : Stream η σ} (step : Step r x y) :
    OneWay.Step r x.link y.link := by
  cases step with
  | push c => exact .push x.link c
  | keepAlive => exact .keepAlive x.link
  | flush => exact .flush x.link
  | deliver m built near => exact .deliver x.link m built near
  | confirm m given near => exact .confirm x.link m given near
  | listen s => exact .listen x.link s

theorem Run.link {r : Receiver η σ} {steady : σ → Prop} {s₀ : σ} {x : Stream η σ}
    (run : Run r steady s₀ x) :
    OneWay.Run r steady s₀ x.link := by
  induction run with
  | start begun => exact .start begun
  | next _ step steady ih => exact ih.next step.link steady

/-- A listener that has been there from the start is there now. -/
theorem Run.steady {r : Receiver η σ} {steady : σ → Prop} {s₀ : σ} {x : Stream η σ}
    (run : Run r steady s₀ x) :
    steady x.link.listeners := by
  cases run with
  | start begun => exact begun
  | next _ _ steady => exact steady

/-! ## What is sent -/

/-- Each unreliable command waits or is in one envelope, and envelopes are numbered through. -/
structure Posted (x : Stream η σ) : Prop where
  once : x.link.sending.mail.flatMap (·.envelope.unreliable) ++ x.link.sending.outbound.unreliable =
    x.pushed
  numbered : x.link.sending.mail.map Mail.position = List.range x.link.sending.mail.length

theorem Posted.flush {x : Stream η σ} (h : x.Posted) :
    Posted { x with link := { x.link with sending := x.link.sending.flush } } := by
  by_cases due : x.link.sending.outbound.isDue
  · rw [Sending.flush_of_isDue due]
    constructor
    · simp [Sending.building, Outbound.envelope, Outbound.flushed, h.once]
    · simp [Sending.building, h.numbered, List.range_succ]
  · rw [Sending.flush_of_not_isDue (by simpa using due)]
    exact ⟨h.once, h.numbered⟩

theorem step_posted {r : Receiver η σ} {x y : Stream η σ} (step : Step r x y) (h : x.Posted) :
    y.Posted := by
  cases step with
  | push c =>
    refine ⟨?_, h.numbered⟩
    have once := h.once
    by_cases guaranteed : c.isGuaranteed
    · simpa [Sending.push, Outbound.push, guaranteed] using once
    · simp [Sending.push, Outbound.push, guaranteed, ← once]
  | flush => exact h.flush
  | keepAlive | deliver | confirm | listen => exact ⟨h.once, h.numbered⟩

theorem Run.posted {r : Receiver η σ} {steady : σ → Prop} {s₀ : σ} {x : Stream η σ}
    (run : Run r steady s₀ x) :
    x.Posted := by
  induction run with
  | start => exact ⟨rfl, rfl⟩
  | next _ step _ ih => exact step_posted step ih

/-- Envelopes are built one after the other. -/
theorem Posted.ordered {x : Stream η σ} (h : x.Posted) :
    x.link.sending.mail.Pairwise fun m n => m.position < n.position := by
  have increasing : (x.link.sending.mail.map Mail.position).Pairwise (· < ·) := by
    rw [h.numbered]
    exact List.pairwise_lt_range
  exact List.pairwise_map.1 increasing

/-! ## What is received -/

/-- What `n` registrations of a listener have been handed goes with the envelopes that arrived. -/
structure Heard [DecidableEq η] (h : η) (n : Nat) (x : Stream η σ) : Prop where
  calls : x.link.calls = x.arrivals.flatMap Arrival.calls
  arrived : ∀ a ∈ x.arrivals, a.mail ∈ x.link.sending.mail
  belongs : ∀ a ∈ x.arrivals, ∃ watermark, ∀ call ∈ a.calls, call.Belongs a.mail.envelope watermark
  whole : ∀ a ∈ x.arrivals,
    a.calls = [] ∨
    handedUnreliable h a.calls = a.mail.envelope.unreliable.flatMap (List.replicate n)
  reached : ∀ a ∈ x.arrivals, a.calls ≠ [] → Reached x.link.receiving.watermark a.mail.position
  ordered : x.arrivals.Pairwise fun a b =>
    a.calls ≠ [] → b.calls ≠ [] → a.mail.position < b.mail.position

section
variable [DecidableEq η] {r : Receiver η σ} {h : η} {n : Nat} {x y : Stream η σ}

theorem Heard.deliver (heard : x.Heard h n) (agree : Agree x.link.sending x.link.receiving)
    {m : Mail} (built : m ∈ x.link.sending.mail) (near : Windowed (x.link.countersOf m))
    (registered : (r.handlers x.link.listeners).count h = n) : (x.deliver r m).Heard h n := by
  have compares : x.link.receiving.Compares m := OneWay.compares_of_windowed near
  have newer := agree.isNewer_iff built compares
  obtain ⟨same, taken, called⟩ := OneWay.deliver_eq x.link r m
  have onward {p : Nat} : Reached x.link.receiving.watermark p →
      Reached (x.link.deliver r m).receiving.watermark p := by
    rw [taken]
    exact agree.reached_take built compares
  constructor
  case calls =>
    rw [Stream.deliver, called, heard.calls, List.flatMap_append]
    simp
  case arrived =>
    intro a mem
    rw [Stream.deliver, same]
    rcases List.mem_append.1 mem with old | new
    · exact heard.arrived a old
    · rw [List.mem_singleton.1 new]
      exact built
  case belongs =>
    intro a mem
    rcases List.mem_append.1 mem with old | new
    · exact heard.belongs a old
    · rw [List.mem_singleton.1 new]
      refine ⟨x.link.receiving.inbound.watermark, fun call made => ?_⟩
      dsimp only at made
      split at made
      · exact Call.belongs_of_mem_calls made
      · cases made
  case whole =>
    intro a mem
    rcases List.mem_append.1 mem with old | new
    · exact heard.whole a old
    · rw [List.mem_singleton.1 new]
      dsimp only
      split
      · right
        rw [handedUnreliable_calls, registered]
      · exact .inl rfl
  case reached =>
    intro a mem made
    rcases List.mem_append.1 mem with old | new
    · exact onward (heard.reached a old made)
    · rw [List.mem_singleton.1 new] at made ⊢
      dsimp only at made
      split at made
      case isTrue new =>
        rw [Stream.deliver, taken, Receiving.take_of_isNewer new]
        exact ⟨m.position, rfl, Nat.le_refl _⟩
      case isFalse => exact absurd rfl made
  case ordered =>
    apply List.pairwise_append.2
    refine ⟨heard.ordered, List.pairwise_singleton _ _, ?_⟩
    intro a old b new before after
    rw [List.mem_singleton.1 new] at after ⊢
    dsimp only at after ⊢
    -- the new envelope makes calls only if the watermark, which every earlier call has reached,
    -- lies before it
    split at after
    case isTrue fresh =>
      obtain ⟨w, is_mark, le⟩ := heard.reached a old before
      have beyond : ¬ m.position ≤ w := by
        intro le
        rw [newer] at fresh
        exact of_decide_eq_true fresh ⟨w, is_mark, le⟩
      omega
    case isFalse => exact absurd rfl after

theorem step_heard (step : Step r x y) (agree : Agree x.link.sending x.link.receiving)
    (registered : (r.handlers x.link.listeners).count h = n) (heard : x.Heard h n) :
    y.Heard h n := by
  cases step with
  | deliver m built near => exact heard.deliver agree built near registered
  | flush =>
    refine ⟨heard.calls, fun a mem => ?_, heard.belongs, heard.whole, heard.reached, heard.ordered⟩
    exact x.link.sending.mail_prefix_flush.subset (heard.arrived a mem)
  | push | keepAlive | confirm | listen =>
    exact ⟨heard.calls, heard.arrived, heard.belongs, heard.whole, heard.reached, heard.ordered⟩

theorem Run.heard {s₀ : σ} (run : Run r (fun s => (r.handlers s).count h = n) s₀ x) :
    x.Heard h n := by
  induction run with
  | start => exact ⟨rfl, nofun, nofun, nofun, nofun, .nil⟩
  | next run step _ ih => exact step_heard step run.link.agree run.steady ih

end

/-! ## What is handed out -/

/-- The arrivals that gave rise to calls. -/
def taken (x : Stream η σ) : List (Arrival η) :=
  x.arrivals.filter (!·.calls.isEmpty)

theorem mem_taken {x : Stream η σ} {a : Arrival η} :
    a ∈ x.taken ↔ a ∈ x.arrivals ∧ a.calls ≠ [] := by
  simp [taken]

/-- Envelopes that lie in the order in which they were built, among all that were built. -/
theorem sublist_of_ordered {mail built : List Mail}
    (ordered : mail.Pairwise fun m n => m.position < n.position)
    (all : built.Pairwise fun m n => m.position < n.position) (known : mail ⊆ built) :
    mail.Sublist built := by
  have distinct : mail.Nodup := ordered.imp fun {m n} earlier same => by
    rw [same] at earlier
    exact Nat.lt_irrefl _ earlier
  exact List.sublist_of_subperm_of_pairwise (List.subperm_of_subset distinct known) ordered all

section
variable [DecidableEq η] {r : Receiver η σ} {h : η} {n : Nat} {x : Stream η σ}

/-- Later arrivals that gave rise to calls are of later envelopes. -/
theorem Heard.taken_ordered (heard : x.Heard h n) :
    (x.taken.map Arrival.mail).Pairwise fun m n => m.position < n.position := by
  apply List.pairwise_map.2
  have ordered :=
    heard.ordered.sublist (List.filter_sublist (p := fun a : Arrival η => !a.calls.isEmpty))
  refine ordered.imp_of_mem ?_
  intro a b first second earlier
  exact earlier (mem_taken.1 first).2 (mem_taken.1 second).2

theorem Heard.taken_sublist (heard : x.Heard h n) (posted : x.Posted) :
    (x.taken.map Arrival.mail).Sublist x.link.sending.mail := by
  apply sublist_of_ordered heard.taken_ordered posted.ordered
  intro m mem
  obtain ⟨a, made, rfl⟩ := List.mem_map.1 mem
  exact heard.arrived a (mem_taken.1 made).1

/-- All that a listener was handed are the unreliable commands of the envelopes that gave rise to
calls. -/
theorem Heard.handed (heard : x.Heard h n) : handedUnreliable h x.link.calls =
    ((x.taken.map Arrival.mail).flatMap (·.envelope.unreliable)).flatMap (List.replicate n) := by
  have each : ∀ arrivals : List (Arrival η), arrivals ⊆ x.arrivals →
      handedUnreliable h (arrivals.flatMap Arrival.calls) =
        (((arrivals.filter (!·.calls.isEmpty)).map Arrival.mail).flatMap
          (·.envelope.unreliable)).flatMap (List.replicate n) := by
    intro arrivals
    induction arrivals with
    | nil => exact fun _ => rfl
    | cons a rest ih =>
      intro known
      obtain ⟨first, others⟩ := List.cons_subset.1 known
      rw [List.flatMap_cons, handedUnreliable_append, ih others]
      by_cases made : a.calls = []
      · simp [made]
      · have whole := (heard.whole a first).resolve_left made
        simp [made, whole]
  rw [heard.calls]
  exact each x.arrivals (List.Subset.refl _)

/-- Of the copies of an envelope one gave rise to calls, or none did. -/
theorem Heard.callsOf_cases (heard : x.Heard h n) (m : Mail) :
    x.callsOf m = [] ∨ ∃ a ∈ x.arrivals, a.mail = m ∧ a.calls ≠ [] ∧ x.callsOf m = a.calls := by
  have once : ∀ arrivals : List (Arrival η), (∀ a ∈ arrivals, a.mail = m) →
      (arrivals.Pairwise fun a b =>
        a.calls ≠ [] → b.calls ≠ [] → a.mail.position < b.mail.position) →
      arrivals.flatMap Arrival.calls = [] ∨
        ∃ a ∈ arrivals, a.calls ≠ [] ∧ arrivals.flatMap Arrival.calls = a.calls := by
    intro arrivals copies ordered
    induction arrivals with
    | nil => exact .inl rfl
    | cons a rest ih =>
      obtain ⟨first, ordered⟩ := List.pairwise_cons.1 ordered
      rw [List.flatMap_cons]
      by_cases made : a.calls = []
      · rcases ih (fun b mem => copies b (List.mem_cons_of_mem _ mem)) ordered with
          none | ⟨b, mem, own, calls⟩
        · exact .inl (by rw [made, none]; rfl)
        · exact .inr ⟨b, List.mem_cons_of_mem _ mem, own, by rw [made, calls]; rfl⟩
      · -- another copy that gives rise to calls would be of a later envelope
        have silent : rest.flatMap Arrival.calls = [] := by
          apply List.flatMap_eq_nil_iff.2
          intro b mem
          by_contra own
          have later := first b mem made own
          rw [copies a List.mem_cons_self, copies b (List.mem_cons_of_mem _ mem)] at later
          exact Nat.lt_irrefl _ later
        exact .inr ⟨a, List.mem_cons_self, made, by rw [silent, List.append_nil]⟩
  have copies : ∀ a ∈ x.arrivals.filter (·.mail = m), a.mail = m := by
    intro a mem
    simpa using (List.mem_filter.1 mem).2
  rcases once _ copies (heard.ordered.sublist List.filter_sublist) with none | ⟨a, mem, made, calls⟩
  · exact .inl none
  · exact .inr ⟨a, (List.mem_filter.1 mem).1, copies a mem, made, calls⟩

/-- Whatever the network does, a listener that stays registered `n` times is handed a subsequence of
the unreliable commands in the order in which they were pushed, each `n` times in a row.  Every call
belongs to an envelope that has arrived; those of one envelope are all there, once, or none is; and
they come in the order of the envelopes, so that none comes after a call of a later one.  While
there are no more flushes than half the circle has positions, every envelope can be compared
whenever it arrives, and so can every acknowledgement. -/
theorem handed_once_or_never {s₀ : σ} (run : Run r (fun s => (r.handlers s).count h = n) s₀ x) :
    (handedUnreliable h x.link.calls).Sublist (x.pushed.flatMap (List.replicate n)) ∧
    (x.link.sending.mail.flatMap (·.envelope.unreliable) ++ x.link.sending.outbound.unreliable =
      x.pushed ∧
      x.link.sending.mail.map Mail.position = List.range x.link.sending.mail.length) ∧
    (x.link.calls = x.arrivals.flatMap Arrival.calls ∧
      ∀ a ∈ x.arrivals, a.mail ∈ x.link.sending.mail ∧
        ∃ watermark, ∀ call ∈ a.calls, call.Belongs a.mail.envelope watermark) ∧
    (∀ m, x.callsOf m = [] ∨ (∃ a ∈ x.arrivals, a.mail = m) ∧
      handedUnreliable h (x.callsOf m) = m.envelope.unreliable.flatMap (List.replicate n)) ∧
    (x.arrivals.Pairwise fun a b =>
      a.calls ≠ [] → b.calls ≠ [] → a.mail.position < b.mail.position) ∧
    (x.link.sending.mail.length ≤ halfRange →
      (∀ m ∈ x.link.sending.mail, Windowed (x.link.countersOf m)) ∧
      (∀ m ∈ x.link.receiving.acknowledged, Windowed (x.link.ackCountersOf m))) := by
  have heard := run.heard
  have posted := run.posted
  refine ⟨?_, ⟨posted.once, posted.numbered⟩, ⟨heard.calls, ?_⟩, ?_, heard.ordered,
    OneWay.windowed_of_few run.link.agree⟩
  · rw [heard.handed, ← posted.once]
    apply List.Sublist.flatMap
    exact ((heard.taken_sublist posted).flatMap _).trans (List.sublist_append_left _ _)
  · intro a mem
    exact ⟨heard.arrived a mem, heard.belongs a mem⟩
  · intro m
    rcases heard.callsOf_cases m with none | ⟨a, mem, rfl, made, calls⟩
    · exact .inl none
    · right
      refine ⟨⟨a, mem, rfl⟩, ?_⟩
      rw [calls]
      exact (heard.whole a mem).resolve_left made

end

/-- The first of two envelopes is overtaken by the second, which replays its batch but not its
unreliable command. -/
theorem handed_once_or_never_overtaken :
    let r : Receiver Unit Unit := ⟨fun _ => [()], fun _ s => s⟩
    let first : Command := .message .unreliable 1 [1]
    let second : Command := .message .unreliable 1 [2]
    let lasting : Command := .message .guaranteed 1 [3]
    ∃ x : Stream Unit Unit, Run r (fun s => (r.handlers s).count () = 1) () x ∧
      x.pushed = [first, second] ∧ x.arrivals.map (·.mail.position) = [1, 0, 1] ∧
      handedTo () x.link.calls = [lasting] ∧ handedUnreliable () x.link.calls = [second] ∧
      (handedUnreliable () x.link.calls).Sublist (x.pushed.flatMap (List.replicate 1)) := by
  intro r first second lasting
  let overtaken : Mail := ⟨⟨0, [⟨0, [lasting]⟩], [first]⟩, 0, [0]⟩
  let later : Mail := ⟨⟨1, [⟨0, [lasting]⟩], [second]⟩, 1, [0]⟩
  have begun : Run r (fun s => (r.handlers s).count () = 1) () { link := { listeners := () } } :=
    .start rfl
  have pushed := (begun.next (.push _ lasting) rfl).next (.push _ first) rfl
  have sent := ((pushed.next (.flush _) rfl).next (.push _ second) rfl).next (.flush _) rfl
  have taken := sent.next (.deliver _ later (by decide) (windowed_of_lt (by decide))) rfl
  have ignored := taken.next (.deliver _ overtaken (by decide) (windowed_of_lt (by decide))) rfl
  have repeated := ignored.next (.deliver _ later (by decide) (windowed_of_lt (by decide))) rfl
  exact ⟨_, repeated, by decide, by decide, by decide, by decide, (handed_once_or_never repeated).1⟩

end Stream
end DatagramSession
