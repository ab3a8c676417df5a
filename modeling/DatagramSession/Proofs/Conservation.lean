import DatagramSession.Proofs.Backlogs
import Mathlib.Data.List.DropRight
/-!
# What becomes of the commands

Whatever is done to an outbound state, in whatever order and with whatever confirmations, no command
is lost, doubled or moved out of turn (`Outbound.commands_conserved`).  The guaranteed commands that
were pushed are those of the batches that confirmations took out, then those of the history, then
those that wait.  What waits is what was pushed since the last flush (`Outbound.Recent`), and each
batch is what waited when a flush formed it (`Outbound.formedIn_of_mem`).
-/
namespace DatagramSession

namespace Outbound

/-- What may be done to an outbound state. -/
inductive Operation where
  | push (c : Command)
  | keepAlive
  | flush
  /-- Any number may be confirmed, also one that no envelope ever had. -/
  | confirm (order : OrderNumber)
  deriving DecidableEq

def Operation.pushed? : Operation → Option Command
  | push c => some c
  | keepAlive | flush | confirm _ => none

/-- The operation makes the next flush due. -/
def Operation.asks : Operation → Bool
  | push _ | keepAlive => true
  | flush | confirm _ => false

def operate (o : Outbound) : Operation → Outbound
  | .push c => o.push c
  | .keepAlive => o.keepAlive
  | .flush => o.flush.2
  | .confirm order => (o.confirm order).2

/-- A fresh outbound state after a run. -/
def after (operations : List Operation) : Outbound :=
  operations.foldl operate {}

/-- The commands that a run pushes. -/
def pushes (operations : List Operation) : List Command :=
  operations.filterMap Operation.pushed?

/-- What a run does after its last flush. -/
def sinceFlush (operations : List Operation) : List Operation :=
  operations.rtakeWhile (· ≠ .flush)

/-- The envelopes that a run builds. -/
def builds (o : Outbound) : List Operation → List Envelope
  | [] => []
  | .flush :: rest => o.flush.1.toList ++ builds o.flush.2 rest
  | operation :: rest => builds (o.operate operation) rest

/-- The batches that the confirmations of a run take out, in that order. -/
def releases (o : Outbound) : List Operation → List Batch
  | [] => []
  | .confirm order :: rest => released order o.history ++ releases (o.confirm order).2 rest
  | operation :: rest => releases (o.operate operation) rest

/-- A flush of this run formed the batch of all that waited, and its envelope, of the same number,
was the first to carry the batch. -/
def FormedIn (operations : List Operation) (b : Batch) : Prop :=
  ∃ before later, operations = before ++ .flush :: later ∧ ∃ e, (after before).flush.1 = some e ∧
    b = ⟨e.order, (after before).guaranteed⟩ ∧ e.guaranteed = (after before).history ++ [b]

end Outbound

namespace Sending

def operate (s : Sending) : Outbound.Operation → Sending
  | .push c => s.push c
  | .keepAlive => s.keepAlive
  | .flush => s.flush
  | .confirm order => s.confirm order

/-- A fresh sending after a run. -/
def after (operations : List Outbound.Operation) : Sending :=
  operations.foldl operate {}

theorem outbound_operate (s : Sending) (operation : Outbound.Operation) :
    (s.operate operation).outbound = s.outbound.operate operation := by
  cases operation with
  | flush => exact s.outbound_flush
  | push | keepAlive | confirm => rfl

theorem Sound.operate {s : Sending} (h : s.Sound) (operation : Outbound.Operation) :
    (s.operate operation).Sound := by
  cases operation with
  | push c => exact h.push c
  | keepAlive => exact h.keepAlive
  | flush => exact h.flush
  | confirm order => exact h.confirm order

theorem pushed_flush (s : Sending) : s.flush.pushed = s.pushed ∧ s.flush.released = s.released := by
  cases due : s.outbound.isDue with
  | true => exact (flush_of_isDue due).symm ▸ ⟨rfl, rfl⟩
  | false => exact (flush_of_not_isDue due).symm ▸ ⟨rfl, rfl⟩

/-- A run of the sending, state and record: what it pushes, releases and builds is added to the
record. -/
theorem foldl_operate (s : Sending) (operations : List Outbound.Operation) :
    (operations.foldl operate s).outbound = operations.foldl Outbound.operate s.outbound ∧
    (operations.foldl operate s).pushed = s.pushed ++ (Outbound.pushes operations).filter
      Command.isGuaranteed ∧
    (operations.foldl operate s).released = s.released ++ s.outbound.releases operations ∧
    (operations.foldl operate s).mail.map Mail.envelope = s.mail.map Mail.envelope ++
      s.outbound.builds operations := by
  induction operations generalizing s with
  | nil => simp [Outbound.pushes, Outbound.releases, Outbound.builds]
  | cons operation rest ih =>
    obtain ⟨outbound, pushed, released, built⟩ := ih (s.operate operation)
    rw [outbound_operate] at outbound released built
    refine ⟨outbound, pushed.trans ?_, released.trans ?_, built.trans ?_⟩
    · cases operation with
      | push c =>
        by_cases own : c.isGuaranteed
        · simp [operate, push, Outbound.pushes, Outbound.Operation.pushed?, own]
        · simp [operate, push, Outbound.pushes, Outbound.Operation.pushed?, own]
      | flush => rw [operate, s.pushed_flush.1]; rfl
      | keepAlive | confirm => rfl
    · cases operation with
      | confirm order => exact List.append_assoc _ _ _
      | flush => rw [operate, s.pushed_flush.2]; rfl
      | push | keepAlive => rfl
    · cases operation with
      | flush =>
        rw [operate, s.mail_flush, List.append_assoc]
        rfl
      | push | keepAlive | confirm => rfl

theorem sound_after (operations : List Outbound.Operation) : (after operations).Sound :=
  List.foldlRecOn operations _ (motive := Sound) sound_start fun _ h operation _ =>
    h.operate operation

end Sending

namespace Outbound

variable {o : Outbound} {recent operations : List Operation} {b : Batch}

theorem after_concat (operations : List Operation) (operation : Operation) :
    after (operations ++ [operation]) = (after operations).operate operation := by
  simp [after]

theorem sinceFlush_concat (operations : List Operation) (operation : Operation) :
    sinceFlush (operations ++ [operation]) =
      if operation = .flush then [] else sinceFlush operations ++ [operation] := by
  simp [sinceFlush, List.rtakeWhile_concat]

/-! ## What waits -/

/-- What waits, and whether a flush was asked for, is decided by what was done since the last
one. -/
structure Recent (o : Outbound) (recent : List Operation) : Prop where
  guaranteed : o.guaranteed = (pushes recent).filter Command.isGuaranteed
  unreliable : o.unreliable = (pushes recent).filter (!·.isGuaranteed)
  asked : o.asked = recent.any Operation.asks

theorem recent_start : Recent {} [] :=
  ⟨rfl, rfl, rfl⟩

theorem Recent.push (h : o.Recent recent) (c : Command) :
    (o.push c).Recent (recent ++ [.push c]) := by
  by_cases own : c.isGuaranteed
  · constructor <;> simp [Outbound.push, own, pushes, Operation.pushed?, Operation.asks,
      h.guaranteed, h.unreliable]
  · constructor <;> simp [Outbound.push, own, pushes, Operation.pushed?, Operation.asks,
      h.guaranteed, h.unreliable]

theorem Recent.keepAlive (h : o.Recent recent) : o.keepAlive.Recent (recent ++ [.keepAlive]) := by
  constructor <;> simp [Outbound.keepAlive, pushes, Operation.pushed?, Operation.asks, h.guaranteed,
    h.unreliable]

theorem Recent.confirm (h : o.Recent recent) (order : OrderNumber) :
    (o.confirm order).2.Recent (recent ++ [.confirm order]) := by
  constructor <;>
    simp [Outbound.confirm, pushes, Operation.pushed?, Operation.asks, h.guaranteed, h.unreliable,
      h.asked]

/-- Nothing was pushed where nothing was asked for. -/
theorem Recent.pushes_eq_nil (h : o.Recent recent) (unasked : o.asked = false) :
    pushes recent = [] := by
  rw [h.asked, List.any_eq_false] at unasked
  refine List.filterMap_eq_nil_iff.2 fun operation done => ?_
  cases operation with
  | push c => exact absurd rfl (unasked _ done)
  | keepAlive | flush | confirm => rfl

theorem Recent.flush (h : o.Recent recent) : o.flush.2.Recent [] := by
  cases due : o.isDue with
  | true =>
    rw [flush_of_isDue due]
    exact ⟨rfl, rfl, rfl⟩
  | false =>
    rw [flush_of_not_isDue due]
    have unasked : o.asked = false := (Bool.or_eq_false_iff.1 due).1
    have silent := h.pushes_eq_nil unasked
    exact ⟨by rw [h.guaranteed, silent]; rfl, by rw [h.unreliable, silent]; rfl, unasked⟩

theorem recent_after (operations : List Operation) :
    (after operations).Recent (sinceFlush operations) := by
  induction operations using List.reverseRecOn with
  | nil => exact recent_start
  | append_singleton operations operation ih =>
    rw [after_concat, sinceFlush_concat]
    cases operation with
    | push c => exact ih.push c
    | keepAlive => exact ih.keepAlive
    | flush => exact ih.flush
    | confirm order => exact ih.confirm order

theorem flush_eq_none_iff : o.flush.1 = none ↔ o.asked = false ∧ o.history = [] := by
  cases due : o.isDue with
  | true =>
    rw [flush_of_isDue due]
    refine ⟨nofun, fun ⟨unasked, empty⟩ => ?_⟩
    simp [isDue, unasked, empty] at due
  | false =>
    rw [flush_of_not_isDue due]
    simpa [isDue] using due

/-! ## Batches -/

theorem extendedHistory_eq (o : Outbound) :
    o.extendedHistory = o.history ++ if o.guaranteed = [] then [] else
      [⟨o.nextOrder, o.guaranteed⟩] := by
  unfold extendedHistory
  by_cases empty : o.guaranteed = []
  · simp [empty]
  · simp [empty]

/-- A batch of the history was there before, or has just been formed of all that waited. -/
theorem mem_history_operate {operation : Operation} (mem : b ∈ (o.operate operation).history) :
    b ∈ o.history ∨ operation = .flush ∧ o.isDue = true ∧ b = ⟨o.nextOrder, o.guaranteed⟩ ∧
      o.extendedHistory = o.history ++ [b] := by
  cases operation with
  | push c =>
    simp only [operate, push] at mem
    split at mem <;> exact .inl mem
  | keepAlive => exact .inl mem
  | confirm order => exact .inl ((List.dropWhile_sublist _).subset mem)
  | flush =>
    cases due : o.isDue with
    | false =>
      rw [operate, flush_of_not_isDue due] at mem
      exact .inl mem
    | true =>
      rw [operate, flush_of_isDue due, flushed, extendedHistory_eq] at mem
      by_cases empty : o.guaranteed = []
      · rw [if_pos empty, List.append_nil] at mem
        exact .inl mem
      · rw [if_neg empty] at mem
        refine (List.mem_append.1 mem).imp_right fun formed => ?_
        obtain rfl := List.mem_singleton.1 formed
        exact ⟨rfl, rfl, rfl, by rw [extendedHistory_eq, if_neg empty]⟩

theorem FormedIn.concat (h : FormedIn operations b) (operation : Operation) :
    FormedIn (operations ++ [operation]) b := by
  obtain ⟨before, later, rfl, formed⟩ := h
  exact ⟨before, later ++ [operation], by simp, formed⟩

theorem formedIn_of_mem (mem : b ∈ (after operations).history) : FormedIn operations b := by
  induction operations using List.reverseRecOn with
  | nil => cases mem
  | append_singleton operations operation ih =>
    rw [after_concat] at mem
    rcases mem_history_operate mem with old | ⟨rfl, due, formed, extended⟩
    · exact (ih old).concat operation
    · refine ⟨operations, [], rfl, (after operations).envelope, ?_, formed, extended⟩
      rw [flush_of_isDue due]

/-- A batch that was formed is not empty, and holds guaranteed commands only. -/
theorem FormedIn.commands (h : FormedIn operations b) :
    b.commands ≠ [] ∧ ∀ c ∈ b.commands, c.isGuaranteed = true := by
  obtain ⟨before, later, rfl, e, built, rfl, carried⟩ := h
  constructor
  · intro (empty : (after before).guaranteed = [])
    cases due : (after before).isDue with
    | false =>
      rw [flush_of_not_isDue due] at built
      cases built
    | true =>
      rw [flush_of_isDue due] at built
      cases built
      have unchanged : (after before).envelope.guaranteed = (after before).history := by
        rw [envelope, extendedHistory_eq, if_pos empty, List.append_nil]
      rw [unchanged] at carried
      simpa using congrArg List.length carried
  · intro c mem
    rw [(recent_after before).guaranteed] at mem
    exact (List.mem_filter.1 mem).2

theorem sending_after (operations : List Operation) :
    (Sending.after operations).outbound = after operations ∧
    (Sending.after operations).pushed = (pushes operations).filter Command.isGuaranteed ∧
    (Sending.after operations).released = releases {} operations ∧
    (Sending.after operations).mail.length = (builds {} operations).length := by
  obtain ⟨outbound, pushed, released, built⟩ := Sending.foldl_operate {} operations
  refine ⟨outbound, pushed, released, ?_⟩
  simpa [Sending.after] using congrArg List.length built

/-- Until the counter wraps, batches are numbered upwards, all below the number of the next
envelope. -/
theorem ids_after (operations : List Operation)
    (few : (builds {} operations).length < UInt32.size) :
    (after operations).nextOrder.toNat = (builds {} operations).length ∧
    (after operations).history.Pairwise (fun a b => a.id < b.id) ∧
    ∀ b ∈ (after operations).history, b.id < (after operations).nextOrder := by
  have h := Sending.sound_after operations
  obtain ⟨outbound, -, -, built⟩ := sending_after operations
  have small {p : Nat} (below : p ≤ (builds {} operations).length) : (numberAt p).toNat = p :=
    UInt32.toNat_ofNat_of_lt' (Nat.lt_of_le_of_lt below few)
  have next : (after operations).nextOrder.toNat = (builds {} operations).length := by
    rw [← outbound, h.number, built, small (Nat.le_refl _)]
  have early {f : Formed}
      (mem : f ∈ (Sending.after operations).formed.drop
        (Sending.after operations).released.length) :
      f.position < (builds {} operations).length := by
    rw [← built]
    exact h.early f (List.mem_of_mem_drop mem)
  rw [← outbound, h.history]
  refine ⟨outbound ▸ next, List.pairwise_map.2 ?_, fun b mem => ?_⟩
  · refine (h.ordered.sublist (List.drop_sublist _ _)).imp_of_mem fun {f g} hf hg earlier => ?_
    rw [UInt32.lt_iff_toNat_lt, Formed.batch, Formed.batch, small (early hf).le,
      small (early hg).le]
    exact earlier
  · obtain ⟨f, hf, rfl⟩ := List.mem_map.1 mem
    rw [UInt32.lt_iff_toNat_lt, outbound, next, Formed.batch, small (early hf).le]
    exact early hf

/-- All that was ever pushed is accounted for, in order: the guaranteed commands by the batches that
confirmations took out, the history and the queue, the others by the next envelope.  Batches are not
empty, bear the number of the flush that formed them and are numbered upwards.  A flush does nothing
just where nothing was asked for since the last one and the history is empty, and otherwise sends
the whole history, what has waited included, under the next number. -/
theorem commands_conserved (operations : List Operation)
    (few : (builds {} operations).length < UInt32.size) :
    let o := after operations
    let recent := pushes (sinceFlush operations)
    ((releases {} operations).flatMap Batch.commands ++ o.history.flatMap Batch.commands ++
      o.guaranteed =
      (pushes operations).filter Command.isGuaranteed) ∧
    (∀ b ∈ o.history, b.commands ≠ [] ∧ (∀ c ∈ b.commands, c.isGuaranteed = true) ∧
      FormedIn operations b) ∧
    (o.history.Pairwise (fun a b => a.id < b.id) ∧ ∀ b ∈ o.history, b.id < o.nextOrder) ∧
    (o.flush.1 = none ↔ (∀ operation ∈ sinceFlush operations, operation.asks = false) ∧
      o.history = []) ∧
    (o.flush.1 = none → o.flush.2 = o) ∧
    ∀ e, o.flush.1 = some e →
      e.order.toNat = (builds {} operations).length ∧
      e.guaranteed = o.flush.2.history ∧
      (e.guaranteed = o.history ++ if recent.filter Command.isGuaranteed = [] then []
        else [⟨e.order, recent.filter Command.isGuaranteed⟩]) ∧
      e.unreliable = recent.filter (!·.isGuaranteed) := by
  intro o recent
  obtain ⟨outbound, pushed, released, -⟩ := sending_after operations
  have waits : o.Recent (sinceFlush operations) := recent_after operations
  obtain ⟨next, upwards, below⟩ := ids_after operations few
  refine ⟨?_, fun b mem => ?_, ⟨upwards, below⟩, ?_, fun idle => ?_, fun e sent => ?_⟩
  · have account := (Sending.sound_after operations).pushed_eq
    rw [pushed, released, outbound] at account
    rw [account, pending, List.append_assoc]
  · have formed := formedIn_of_mem mem
    exact ⟨formed.commands.1, formed.commands.2, formed⟩
  · rw [flush_eq_none_iff, waits.asked, List.any_eq_false]
    simp only [Bool.not_eq_true]
  · cases due : o.isDue with
    | false => rw [flush_of_not_isDue due]
    | true =>
      rw [flush_of_isDue due] at idle
      cases idle
  · cases due : o.isDue with
    | false =>
      rw [flush_of_not_isDue due] at sent
      cases sent
    | true =>
      rw [flush_of_isDue due] at sent ⊢
      cases sent
      refine ⟨next, rfl, ?_, waits.unreliable⟩
      rw [← waits.guaranteed]
      exact o.extendedHistory_eq

/-- Two batches, the first of which is confirmed; then a number is confirmed that no envelope had,
which takes out nothing. -/
theorem commands_conserved_busy :
    let g (n : UInt8) : Command := .message .guaranteed 0 [n]
    let u (n : UInt8) : Command := .message .unreliable 0 [n]
    let operations : List Operation :=
      [.push (g 1), .push (u 2), .flush, .push (g 3), .keepAlive, .flush, .confirm 0, .flush,
        .push (u 4), .push (g 5), .confirm 4294967295]
    (builds {} operations).length = 3 ∧
      (releases {} operations).flatMap Batch.commands ++ (after operations).history.flatMap
      Batch.commands
        ++ (after operations).guaranteed = [g 1, g 3, g 5] ∧
      (after operations).history = [⟨1, [g 3]⟩] ∧
      (after operations).flush.1 = some ⟨3, [⟨1, [g 3]⟩, ⟨3, [g 5]⟩], [u 4]⟩ := by
  intro g u operations
  have built : (builds {} operations).length = 3 := by decide +kernel
  have conserved := commands_conserved operations (by rw [built]; decide)
  refine ⟨built, conserved.1.trans ?_, ?_, ?_⟩
  · decide +kernel
  · decide +kernel
  · decide +kernel

end Outbound
end DatagramSession
