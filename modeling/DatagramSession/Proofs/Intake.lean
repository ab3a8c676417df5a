import DatagramSession.Proofs.Dispatch
import Mathlib.Data.List.Basic
/-!
# What one receiving party takes in

An `Intake` is the inbound state that one peer has with a receiver, beside its past: the envelopes
that were accepted and the batches that were handed out.  The envelopes may come from anyone, in any
order, with repeats, and with any contents under any batch id; they only have to be numbered as a
sender numbers them (`Envelope.Ascending`).  Main statement: `handouts_ascend`, the ids of the
batches that are handed out rise over the whole run.
-/
namespace DatagramSession

/-- Numbers below half the circle, and batches in the order of their ids, none of which is above the
envelope's own number. -/
structure Envelope.Ascending (e : Envelope) : Prop where
  low : e.order.toNat < halfRange
  rising : e.batchIds.Pairwise fun a b => a.toNat < b.toNat
  within : ∀ b ∈ e.guaranteed, b.id.toNat ≤ e.order.toNat

/-- A call that hands out a guaranteed command. -/
def Call.handsOut {η : Type} : Call η → Bool
  | .guaranteed .. => true
  | .acknowledge _ | .unreliable .. => false

/-- A batch in the hands of those whom its envelope has found. -/
structure Handout (η : Type) where
  batch : Batch
  handlers : List η
  deriving DecidableEq

/-- Each command of the batch goes to each of the handlers. -/
def Handout.calls {η : Type} (h : Handout η) : List (Call η) :=
  h.batch.commands.flatMap fun c => h.handlers.map (Call.guaranteed · c)

/-- The inbound state of one peer and its past. -/
structure Intake (η σ : Type) where
  inbound : Inbound := {}
  /-- The state of the receiver's listeners. -/
  listeners : σ
  /-- Every call that was made for this peer. -/
  calls : List (Call η) := []
  /-- The envelopes that were accepted. -/
  accepted : List Envelope := []
  /-- The batches that were handed out. -/
  handouts : List (Handout η) := []

namespace Intake

variable {η σ : Type}

/-- Processes an envelope, and notes it if it is accepted. -/
def take (x : Intake η σ) (r : Receiver η σ) (e : Envelope) : Intake η σ :=
  match r.recorded.receive x.inbound e (x.listeners, x.calls) with
  | (.stale, inbound, listeners, calls) => { x with inbound, listeners, calls }
  | (.accepted .., inbound, listeners, calls) => {
      inbound, listeners, calls
      accepted := x.accepted ++ [e]
      handouts :=
    x.handouts ++ (e.freshBatches x.inbound.watermark).map (⟨·, r.handlers x.listeners⟩) }

/-- What may happen next. -/
inductive Step (r : Receiver η σ) : Intake η σ → Intake η σ → Prop where
  | take (x : Intake η σ) (e : Envelope) (ascending : e.Ascending) : Step r x (x.take r e)
  /-- Listeners come and go. -/
  | listen (x : Intake η σ) (s : σ) : Step r x { x with listeners := s }

/-- What a run reaches that starts with an empty inbound state. -/
inductive Run (r : Receiver η σ) (s₀ : σ) : Intake η σ → Prop where
  | start : Run r s₀ { listeners := s₀ }
  | next {x y : Intake η σ} : Run r s₀ x → Step r x y → Run r s₀ y

section
variable {x y : Intake η σ} {r : Receiver η σ} {e : Envelope}

theorem take_of_not_isNewer (old : e.order.isNewer x.inbound.watermark = false) :
    x.take r e = x := by
  simp only [take, Receiver.receive_of_not_isNewer _ _ old]

theorem take_of_isNewer (newer : e.order.isNewer x.inbound.watermark = true) :
    x.take r e = {
      inbound := ⟨some e.order⟩
      listeners := r.performAll (e.calls x.inbound.watermark (r.handlers x.listeners)) x.listeners
      calls := x.calls ++ e.calls x.inbound.watermark (r.handlers x.listeners)
      accepted := x.accepted ++ [e]
      handouts := x.handouts ++ (e.freshBatches x.inbound.watermark).map
        (⟨·, r.handlers x.listeners⟩) } := by
  simp only [take, Receiver.receive_eq, Receiver.performAll_recorded, Inbound.take, newer, if_true]
  rfl

/-- Of the calls of an envelope, those of its fresh batches hand out guaranteed commands. -/
theorem filter_handsOut_calls (e : Envelope) (watermark : Option OrderNumber) (handlers : List η) :
    (e.calls watermark handlers).filter Call.handsOut
      = ((e.freshBatches watermark).map (Handout.mk · handlers)).flatMap Handout.calls := by
  have ack : List.filter Call.handsOut
      (if e.guaranteed ≠ [] then [Call.acknowledge (.ack e.order)] else ([] : List (Call η))) =
      [] := by
    split <;> rfl
  have unreliable : (e.unreliable.flatMap fun c => handlers.map (Call.unreliable · c)).filter
      Call.handsOut = [] := by
    simp [List.filter_flatMap, List.filter_map, Function.comp_def, Call.handsOut]
  rw [e.calls_eq, List.filter_append, List.filter_append, ack, unreliable, List.append_nil,
    List.append_nil]
  simp [List.filter_flatMap, List.filter_map, Function.comp_def, Call.handsOut, List.flatMap_map,
    Handout.calls]

end

/-- The calls are those of the batches that were handed out, whose ids rise and have not passed the
watermark, and the watermark is the number of the last envelope that was accepted. -/
structure Sound (x : Intake η σ) : Prop where
  called : x.calls.filter Call.handsOut = x.handouts.flatMap Handout.calls
  rising : x.handouts.Pairwise fun g h => g.batch.id.toNat < h.batch.id.toNat
  passed : ∀ h ∈ x.handouts, ∃ w ∈ x.inbound.watermark, h.batch.id.toNat ≤ w.toNat
  advancing : x.accepted.Pairwise fun d e => d.order.toNat < e.order.toNat
  last : x.inbound.watermark = x.accepted.getLast?.map Envelope.order
  reached : ∀ e ∈ x.accepted, ∃ w ∈ x.inbound.watermark, e.order.toNat ≤ w.toNat
  low : ∀ w ∈ x.inbound.watermark, w.toNat < halfRange

namespace Sound

variable {x : Intake η σ} {e : Envelope}

theorem start (s₀ : σ) : Sound ({ listeners := s₀ } : Intake η σ) where
  called := rfl
  rising := .nil
  passed := nofun
  advancing := .nil
  last := rfl
  reached := nofun
  low := nofun

/-- An envelope is new if its number is above the watermark. -/
theorem isNewer_iff (h : x.Sound) (low : e.order.toNat < halfRange) :
    e.order.isNewer x.inbound.watermark = true ↔
    ∀ w ∈ x.inbound.watermark, w.toNat < e.order.toNat :=
  OrderNumber.isNewer_of_lt low h.low

/-- Of an ascending envelope the batches above the watermark are new. -/
theorem freshBatches_eq (h : x.Sound) (ascending : e.Ascending) :
    e.freshBatches x.inbound.watermark =
      e.guaranteed.filter fun b => x.inbound.watermark.all fun w => w.toNat < b.id.toNat := by
  apply List.filter_congr
  intro b mem
  have low := Nat.lt_of_le_of_lt (ascending.within b mem) ascending.low
  rw [Bool.eq_iff_iff, OrderNumber.isNewer_of_lt low h.low, Option.all_eq_true]
  simp

theorem take (h : x.Sound) (r : Receiver η σ) (ascending : e.Ascending) : (x.take r e).Sound := by
  by_cases newer : e.order.isNewer x.inbound.watermark = true
  · have above := (h.isNewer_iff ascending.low).1 newer
    have raised {n : Nat} (passed : ∃ w ∈ x.inbound.watermark, n ≤ w.toNat) :
        n < e.order.toNat := by
      obtain ⟨w, mark, le⟩ := passed
      exact Nat.lt_of_le_of_lt le (above w mark)
    have fresh {g : Handout η}
        (new : g ∈ (e.freshBatches x.inbound.watermark).map (⟨·, r.handlers x.listeners⟩)) :
        g.batch.id.toNat ≤ e.order.toNat ∧ ∀ w ∈ x.inbound.watermark,
        w.toNat < g.batch.id.toNat := by
      obtain ⟨b, mem, rfl⟩ := List.mem_map.1 new
      rw [h.freshBatches_eq ascending, List.mem_filter, Option.all_eq_true] at mem
      exact ⟨ascending.within b mem.1, by simpa using mem.2⟩
    have inOrder : (e.freshBatches x.inbound.watermark).Pairwise fun a b =>
        a.id.toNat < b.id.toNat :=
      (List.pairwise_map.1 ascending.rising).sublist List.filter_sublist
    rw [take_of_isNewer newer]
    constructor
    case called =>
      simp only [List.filter_append, h.called, filter_handsOut_calls, List.flatMap_append]
    case rising =>
      refine List.pairwise_append.2 ⟨h.rising, List.pairwise_map.2 inOrder, fun g old g' new => ?_⟩
      obtain ⟨w, mark, le⟩ := h.passed g old
      exact Nat.lt_of_le_of_lt le ((fresh new).2 w mark)
    case passed =>
      intro g mem
      refine ⟨e.order, rfl, ?_⟩
      rcases List.mem_append.1 mem with old | new
      · exact Nat.le_of_lt (raised (h.passed g old))
      · exact (fresh new).1
    case advancing =>
      refine List.pairwise_append.2
        ⟨h.advancing, List.pairwise_singleton _ _, fun d old e' new => ?_⟩
      rw [List.mem_singleton.1 new]
      exact raised (h.reached d old)
    case last => simp
    case reached =>
      intro d mem
      refine ⟨e.order, rfl, ?_⟩
      rcases List.mem_append.1 mem with old | new
      · exact Nat.le_of_lt (raised (h.reached d old))
      · rw [List.mem_singleton.1 new]
    case low =>
      rintro w ⟨⟩
      exact ascending.low
  · rw [take_of_not_isNewer (by simpa using newer)]
    exact h

end Sound

theorem step_sound {r : Receiver η σ} {x y : Intake η σ} (step : Step r x y) (h : x.Sound) :
    y.Sound := by
  cases step with
  | take e ascending => exact h.take r ascending
  | listen s => exact ⟨h.called, h.rising, h.passed, h.advancing, h.last, h.reached, h.low⟩

theorem Run.sound {r : Receiver η σ} {s₀ : σ} {x : Intake η σ} (run : Run r s₀ x) : x.Sound := by
  induction run with
  | start => exact .start s₀
  | next _ step ih => exact step_sound step ih

/-- Whoever sends, and whoever listens: the batches that are handed out have rising ids over the
whole run, so that no id is handed out twice, and each accepted envelope has a higher number than
those before it.  An envelope that is not above the watermark changes nothing and makes no call; one
that is above it is accepted, and hands out its batches above the watermark. -/
theorem handouts_ascend {r : Receiver η σ} {s₀ : σ} {x : Intake η σ} (run : Run r s₀ x) :
    x.calls.filter Call.handsOut = x.handouts.flatMap Handout.calls ∧
    (x.handouts.Pairwise fun g h => g.batch.id.toNat < h.batch.id.toNat) ∧
    (x.accepted.Pairwise fun d e => d.order.toNat < e.order.toNat) ∧
    x.inbound.watermark = x.accepted.getLast?.map Envelope.order ∧
    (∀ e : Envelope, (∃ w ∈ x.inbound.watermark, e.order.toNat ≤ w.toNat) → x.take r e = x) ∧
    (∀ e : Envelope, e.Ascending → (∀ w ∈ x.inbound.watermark, w.toNat < e.order.toNat) →
      (x.take r e).accepted = x.accepted ++ [e] ∧
      (x.take r e).handouts = x.handouts ++
        (e.guaranteed.filter fun b => x.inbound.watermark.all fun w => w.toNat < b.id.toNat).map
          (⟨·, r.handlers x.listeners⟩)) := by
  have h := run.sound
  refine ⟨h.called, h.rising, h.advancing, h.last, fun e ⟨w, mark, le⟩ => ?_,
    fun e ascending above => ?_⟩
  · have low : e.order.toNat < halfRange := Nat.lt_of_le_of_lt le (h.low w mark)
    have old : ¬ e.order.isNewer x.inbound.watermark = true := by
      rw [h.isNewer_iff low]
      exact fun above => Nat.not_lt_of_le le (above w mark)
    exact take_of_not_isNewer (by simpa using old)
  · rw [take_of_isNewer ((h.isNewer_iff ascending.low).2 above), h.freshBatches_eq ascending]
    exact ⟨rfl, rfl⟩

/-- The second envelope is late and its batch 1 is lost; the third one brings other contents under
the ids 0 to 2 as well, of which nothing is handed out. -/
theorem handouts_ascend_mixed :
    let r : Receiver Unit Unit := ⟨fun _ => [()], fun _ s => s⟩
    let c (n : UInt8) : Command := .message .guaranteed 1 [n]
    let first : Envelope := ⟨2, [⟨0, [c 1]⟩, ⟨2, [c 2]⟩], []⟩
    let late : Envelope := ⟨1, [⟨0, [c 1]⟩, ⟨1, [c 3]⟩], []⟩
    let other : Envelope := ⟨4, [⟨0, [c 7]⟩, ⟨1, [c 8]⟩, ⟨2, [c 9]⟩, ⟨3, [c 4]⟩], [c 5]⟩
    let last : Envelope := ⟨6, [⟨3, [c 5]⟩, ⟨6, [c 6]⟩], []⟩
    let x : Intake Unit Unit := ((Intake.take { listeners := () } r first).take r late).take r other
    Run r () x ∧ x.handouts.map (·.batch) = [⟨0, [c 1]⟩, ⟨2, [c 2]⟩, ⟨3, [c 4]⟩] ∧
    (x.handouts.Pairwise fun g h => g.batch.id.toNat < h.batch.id.toNat) ∧
    x.accepted = [first, other] ∧ x.take r first = x ∧ x.take r late = x ∧
    (x.take r last).handouts = x.handouts ++ [⟨⟨6, [c 6]⟩, [()]⟩] := by
  intro r c first late other last x
  have one : Run r () _ := Run.start.next (.take _ first ⟨by decide, by decide, by decide⟩)
  have two := one.next (.take _ late ⟨by decide, by decide, by decide⟩)
  have three : Run r () x := two.next (.take _ other ⟨by decide, by decide, by decide⟩)
  obtain ⟨_, rising, _, _, ignored, taken⟩ := handouts_ascend three
  refine ⟨three, by decide, rising, by decide, ?_, ?_, ?_⟩
  · exact ignored first ⟨4, by decide, by decide⟩
  · exact ignored late ⟨4, by decide, by decide⟩
  · have mark : x.inbound.watermark = some 4 := by decide
    have handedOut := (taken last ⟨by decide, by decide, by decide⟩ (by simp [mark, last])).2
    exact handedOut.trans (congrArg (_ ++ ·) (by decide))

end Intake
end DatagramSession
