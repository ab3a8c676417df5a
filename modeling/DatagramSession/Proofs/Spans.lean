import DatagramSession.Proofs.SlotMaps
/-!
# Peers that come and go

A map of slots is asked for this and that, while peers come and go.  A peer that was added and not
removed since is served as if it were alone with a fresh slot; one that is not there is refused
everything: main statement `served_as_alone`.  Requests to all peers visit them in any order.
-/
namespace DatagramSession

/-- What may be asked of a slot. -/
inductive SlotRequest where
  | enqueue (c : Command)
  | flush
  | keepAlive
  | confirm (order : OrderNumber)
  | unconfirmed
  deriving DecidableEq

inductive SlotAnswer where
  /-- Says whether it was done. -/
  | done (taken : Bool)
  | sent (envelopes : List Envelope)
  | count (n : Nat)
  deriving DecidableEq

/-- The answer to a request for a peer who is not there. -/
def SlotRequest.refusal : SlotRequest → SlotAnswer
  | enqueue _ | keepAlive => .done false
  | flush => .sent []
  | confirm _ | unconfirmed => .count 0

namespace PeerSlot

def perform (slot : PeerSlot) : SlotRequest → SlotAnswer × PeerSlot
  | .enqueue c => (.done (enqueue c slot).1, (enqueue c slot).2)
  | .flush => (.sent (flush slot).1.toList, (flush slot).2)
  | .keepAlive => (.done (keepAlive slot).1, (keepAlive slot).2)
  | .confirm order => (.count (confirm order slot).1, (confirm order slot).2)
  | .unconfirmed => (.count (unconfirmed slot), slot)

/-- Carries out one request after the other. -/
def performAll (slot : PeerSlot) : List SlotRequest → List SlotAnswer × PeerSlot
  | [] => ([], slot)
  | r :: rest =>
    let (answer, slot) := slot.perform r
    let (answers, slot) := slot.performAll rest
    (answer :: answers, slot)

theorem perform_none (r : SlotRequest) : perform none r = (r.refusal, none) := by
  cases r with
  | enqueue c =>
    by_cases fits : c.payload.length ≤ maxPayloadSize <;>
      simp [perform, enqueue, fits, SlotRequest.refusal]
  | flush | keepAlive | confirm | unconfirmed => rfl

/-- No request takes a peer away. -/
theorem isSome_perform (slot : PeerSlot) (r : SlotRequest) :
    (slot.perform r).2.isSome = slot.isSome := by
  cases slot with
  | none => rw [perform_none]
  | some o =>
    cases r with
    | enqueue c =>
      by_cases fits : c.payload.length ≤ maxPayloadSize <;> simp [perform, enqueue, fits]
    | flush | keepAlive | confirm | unconfirmed => rfl

theorem performAll_append_singleton (slot : PeerSlot) (rs : List SlotRequest) (r : SlotRequest) :
    slot.performAll (rs ++ [r]) =
      ((slot.performAll rs).1 ++ [((slot.performAll rs).2.perform r).1],
        ((slot.performAll rs).2.perform r).2) := by
  induction rs generalizing slot with
  | nil => rfl
  | cons first rest ih => simp [performAll, ih]

theorem isSome_performAll (slot : PeerSlot) (rs : List SlotRequest) :
    (slot.performAll rs).2.isSome = slot.isSome := by
  induction rs generalizing slot with
  | nil => rfl
  | cons r rest ih => exact (ih _).trans (slot.isSome_perform r)

end PeerSlot

/-- What may be asked of a map of slots. -/
inductive PeerRequest (κ : Type) where
  | add (peer : κ)
  | remove (peer : κ)
  | one (peer : κ) (r : SlotRequest)
  | broadcast (c : Command)
  | flushAll
  deriving DecidableEq

inductive PeerAnswer (κ : Type) where
  | slot (answer : SlotAnswer)
  | mail (envelopes : List (κ × Envelope))
  deriving DecidableEq

/-- A request and its answer. -/
structure Turn (κ : Type) where
  request : PeerRequest κ
  answer : PeerAnswer κ

namespace Turn

variable {κ : Type} [DecidableEq κ]

/-- What a turn asks of one peer's slot: a broadcast asks it to take the command, and so on. -/
def request? (k : κ) (t : Turn κ) : Option SlotRequest :=
  match t.request with
  | .add _ | .remove _ => none
  | .one peer r => if peer = k then some r else none
  | .broadcast c => some (.enqueue c)
  | .flushAll => some .flush

/-- What a turn answers one peer's slot: of a broadcast whether anybody took it, of the mail what is
its own. -/
def answer? (k : κ) (t : Turn κ) : Option SlotAnswer :=
  match t.request, t.answer with
  | .one peer _, .slot answer => if peer = k then some answer else none
  | .broadcast _, .slot (.count n) => some (.done (decide (0 < n)))
  | .flushAll, .mail envelopes => some (.sent ((envelopes.filter (·.1 = k)).map Prod.snd))
  | _, _ => none

/-- A peer has just come in. -/
def joined (k : κ) : Turn κ :=
  ⟨.add k, .slot (.done true)⟩

end Turn

namespace PeerMap

section
variable {κ : Type} {turns span : List (Turn κ)} {t : Turn κ} {k : κ}

/-- A peer came in and has stayed for the last of the turns. -/
def Stays (k : κ) (turns span : List (Turn κ)) : Prop :=
  (∃ before, turns = before ++ Turn.joined k :: span) ∧ ∀ t ∈ span, t.request ≠ .remove k

/-- A turn after which a peer stays is the one in which it came, or one more of its stay. -/
theorem stays_append_singleton : Stays k (turns ++ [t]) span ↔
    (t = .joined k ∧ span = []) ∨ t.request ≠ .remove k ∧ ∃ before,
      Stays k turns before ∧ span = before ++ [t] := by
  constructor
  · rintro ⟨⟨before, all⟩, stay⟩
    rcases span.eq_nil_or_concat with rfl | ⟨earlier, last, rfl⟩
    · obtain ⟨-, last⟩ := List.append_inj' all rfl
      exact .inl ⟨by simpa using last, rfl⟩
    · rw [List.concat_eq_append] at all stay ⊢
      rw [← List.cons_append, ← List.append_assoc] at all
      obtain ⟨split, same⟩ := List.append_inj' all rfl
      obtain rfl : t = last := by simpa using same
      exact .inr ⟨stay t (by simp), earlier, ⟨⟨before, split⟩, fun t mem => stay t (by simp [mem])⟩,
        rfl⟩
  · rintro (⟨rfl, rfl⟩ | ⟨goes, earlier, ⟨⟨before, rfl⟩, stay⟩, rfl⟩)
    · exact ⟨⟨turns, rfl⟩, nofun⟩
    · refine ⟨⟨before, by simp⟩, fun t' mem => ?_⟩
      rcases List.mem_append.1 mem with old | new
      · exact stay t' old
      · rw [List.mem_singleton.1 new]
        exact goes

end

variable {κ : Type} [DecidableEq κ]

/-- Carries out a request to the slot of one peer. -/
def perform (m : PeerMap κ) (k : κ) : SlotRequest → SlotAnswer × PeerMap κ
  | .enqueue c => (.done (m.enqueue k c).1, (m.enqueue k c).2)
  | .flush => (.sent (m.flush k).1.toList, (m.flush k).2)
  | .keepAlive => (.done (m.keepAlive k).1, (m.keepAlive k).2)
  | .confirm order => (.count (m.confirm k order).1, (m.confirm k order).2)
  | .unconfirmed => (.count (m.unconfirmed k), m)

theorem perform_eq (m : PeerMap κ) (k : κ) (r : SlotRequest) :
    m.perform k r =
      ((PeerSlot.perform (m.find? k) r).1, m.set k (PeerSlot.perform (m.find? k) r).2) := by
  cases r with
  | unconfirmed => exact congrArg (Prod.mk _) (m.set_find? k).symm
  | enqueue | flush | keepAlive | confirm => rfl

/-- A request is answered; one to all peers visits them in some order. -/
inductive Step : PeerMap κ → Turn κ → PeerMap κ → Prop where
  | add (m : PeerMap κ) (k : κ) : Step m ⟨.add k, .slot (.done (m.add k).1)⟩ (m.add k).2
  | remove (m : PeerMap κ) (k : κ) : Step m ⟨.remove k, .slot (.done (m.remove k).1)⟩ (m.remove k).2
  | one (m : PeerMap κ) (k : κ) (r : SlotRequest) :
      Step m ⟨.one k r, .slot (m.perform k r).1⟩ (m.perform k r).2
  | broadcast (m : PeerMap κ) (c : Command) {order : List κ} (all : order.Perm m.keys) :
      Step m ⟨.broadcast c, .slot (.count (enqueueAll c order m).1)⟩ (enqueueAll c order m).2
  | flushAll (m : PeerMap κ) {order : List κ} (all : order.Perm m.keys) :
      Step m ⟨.flushAll, .mail (flushEach order m).1⟩ (flushEach order m).2

/-- What may have been asked and answered since there were no peers, oldest first. -/
inductive Run : List (Turn κ) → PeerMap κ → Prop where
  | start : Run [] {}
  | next {turns : List (Turn κ)} {t : Turn κ} {m m' : PeerMap κ} : Run turns m → Step m t m' →
      Run (turns ++ [t]) m'

section
variable {m m' : PeerMap κ} {t : Turn κ} {turns span : List (Turn κ)} {k : κ}

theorem mem_order {order : List κ} (all : order.Perm m.keys) :
    k ∈ order ↔ (m.find? k).isSome = true := by
  rw [all.mem_iff, Table.mem_keys_iff]

/-- A broadcast reaches every peer, if it can be sent at all. -/
theorem enqueueAll_of_perm {order : List κ} (all : order.Perm m.keys) (c : Command) :
    (enqueueAll c order m).1 = if c.payload.length ≤ maxPayloadSize then m.size else 0 := by
  split
  case isTrue fits =>
    rw [enqueueAll_fst fits, List.countP_eq_length.2 fun k mem => (mem_order all).1 mem,
      all.length_eq]
    exact List.length_map _
  case isFalse large => rw [enqueueAll_of_large large]

theorem size_pos (present : (m.find? k).isSome = true) : 0 < m.size := by
  have mem : k ∈ m.keys := Table.mem_keys_iff.2 present
  have pos := List.length_pos_of_mem mem
  rwa [Table.keys, List.length_map] at pos

/-- What is asked of one peer's slot is done to it. -/
theorem Step.find? (step : Step m t m') {r : SlotRequest} (asked : t.request? k = some r) :
    m'.find? k = (PeerSlot.perform (m.find? k) r).2 := by
  cases step with
  | add | remove => cases asked
  | one peer request =>
    rw [perform_eq, Table.find?_set]
    by_cases same : peer = k
    · subst same
      obtain rfl : request = r := by simpa [Turn.request?] using asked
      simp
    · simp [Turn.request?, same] at asked
  | broadcast c all =>
    obtain rfl : .enqueue c = r := by simpa [Turn.request?] using asked
    rw [find?_enqueueAll (all.nodup_iff.2 m.unique)]
    split
    case isTrue => rfl
    case isFalse absent =>
      rw [mem_order all, Option.not_isSome_iff_eq_none] at absent
      rw [absent, PeerSlot.perform_none]
  | flushAll all =>
    obtain rfl : .flush = r := by simpa [Turn.request?] using asked
    rw [find?_flushEach (all.nodup_iff.2 m.unique)]
    split
    case isTrue => rfl
    case isFalse absent =>
      rw [mem_order all, Option.not_isSome_iff_eq_none] at absent
      rw [absent, PeerSlot.perform_none]

/-- A peer who is there is answered as its slot answers. -/
theorem Step.answer? (step : Step m t m') (present : (m.find? k).isSome = true) :
    t.answer? k = (t.request? k).map fun r => (PeerSlot.perform (m.find? k) r).1 := by
  cases step with
  | add | remove => rfl
  | one peer request =>
    by_cases same : peer = k
    · subst same
      simp [Turn.answer?, Turn.request?, perform_eq]
    · simp [Turn.answer?, Turn.request?, same]
  | broadcast c all =>
    have pos := size_pos present
    by_cases fits : c.payload.length ≤ maxPayloadSize
    · simp [Turn.answer?, Turn.request?, enqueueAll_of_perm all, fits, PeerSlot.perform,
        PeerSlot.enqueue, present, pos]
    · simp [Turn.answer?, Turn.request?, enqueueAll_of_perm all, fits, PeerSlot.perform,
        PeerSlot.enqueue]
  | flushAll all =>
    simp [Turn.answer?, Turn.request?, flushEach_filter (all.nodup_iff.2 m.unique), mem_order all,
      present, PeerSlot.perform]

/-- A slot that nothing is asked of stays, unless its peer comes or goes. -/
theorem Step.find?_of_unasked (step : Step m t m') (unasked : t.request? k = none)
    (comes : t ≠ .joined k) (goes : t.request ≠ .remove k) : m'.find? k = m.find? k := by
  cases step with
  | add peer =>
    cases found : m.find? peer with
    | some o => rw [add_of_present found]
    | none =>
      rw [add_of_absent found, Table.find?_insert, if_neg]
      intro same
      rw [add_of_absent found, same] at comes
      exact comes rfl
  | remove peer =>
    rw [PeerMap.remove, Table.find?_erase, if_neg]
    intro same
    rw [same] at goes
    exact goes rfl
  | one peer request =>
    rw [perform_eq, Table.find?_set, if_neg]
    intro same
    simp [Turn.request?, same] at unasked
  | broadcast | flushAll => cases unasked

/-- A peer comes in only if it is not there, and starts afresh. -/
theorem Step.joined (step : Step m (.joined k) m') :
    m.find? k = none ∧ m'.find? k = PeerSlot.connected := by
  generalize comes : Turn.joined k = t at step
  cases step with
  | add peer =>
    obtain ⟨same, taken⟩ : k = peer ∧ true = (m.add peer).1 := by simpa [Turn.joined] using comes
    subst same
    cases found : m.find? k with
    | some o =>
      rw [add_of_present found] at taken
      cases taken
    | none =>
      rw [add_of_absent found, Table.find?_insert, if_pos rfl]
      exact ⟨rfl, rfl⟩
  | remove | one | broadcast | flushAll => cases comes

theorem Step.removed (step : Step m t m') (goes : t.request = .remove k) : m'.find? k = none := by
  cases step with
  | remove peer =>
    obtain rfl : peer = k := by simpa using goes
    rw [PeerMap.remove, Table.find?_erase, if_pos rfl]
  | add | one | broadcast | flushAll => cases goes

/-- While a peer stays, its slot does what it is asked for, and so it is answered. -/
theorem Run.served (run : Run turns m) (stays : Stays k turns span) :
    (span.filterMap (Turn.answer? k), m.find? k) =
      PeerSlot.performAll .connected (span.filterMap (Turn.request? k)) := by
  induction run generalizing span with
  | start =>
    obtain ⟨⟨before, all⟩, -⟩ := stays
    simp at all
  | @next turns t m m' run step ih =>
    rcases stays_append_singleton.1 stays with ⟨rfl, rfl⟩ | ⟨goes, earlier, stayed, rfl⟩
    · rw [step.joined.2]
      rfl
    · have before := ih stayed
      obtain ⟨answers, slot⟩ := Prod.ext_iff.1 before
      have present : (m.find? k).isSome = true := by
        rw [show m.find? k = _ from slot, PeerSlot.isSome_performAll]
        rfl
      have comes : t ≠ .joined k := by
        rintro rfl
        rw [step.joined.1] at present
        cases present
      rw [List.filterMap_append, List.filterMap_append]
      cases asked : t.request? k with
      | none =>
        rw [step.find?_of_unasked asked comes goes]
        simpa [asked, step.answer? present] using before
      | some r =>
        dsimp only at answers slot
        simp [asked, step.answer? present, step.find? asked, PeerSlot.performAll_append_singleton,
          ← answers, ← slot]

/-- A peer is not there unless it came and has stayed. -/
theorem Run.absent (run : Run turns m) (away : ∀ span, ¬ Stays k turns span) :
    m.find? k = none := by
  induction run with
  | start => rfl
  | @next turns t m m' run step ih =>
    by_cases goes : t.request = .remove k
    · exact step.removed goes
    have comes : t ≠ .joined k :=
      fun comes => away [] (stays_append_singleton.2 (.inl ⟨comes, rfl⟩))
    have before :=
      ih fun span stays => away _ (stays_append_singleton.2 (.inr ⟨goes, span, stays, rfl⟩))
    cases asked : t.request? k with
    | none => rw [step.find?_of_unasked asked comes goes, before]
    | some r => rw [step.find? asked, before, PeerSlot.perform_none]

theorem remove_of_absent (absent : m.find? k = none) : m.remove k = (false, m) := by
  have kept := m.set_find? k
  rw [absent] at kept
  exact Prod.ext (by simp [remove, Table.contains, absent]) kept

theorem perform_of_absent (absent : m.find? k = none) (r : SlotRequest) :
    m.perform k r = (r.refusal, m) := by
  have kept := m.set_find? k
  rw [absent] at kept
  rw [perform_eq, absent, PeerSlot.perform_none, kept]

/-- A peer that came in and has stayed is answered, and its slot changed, as by the same requests to
it alone with a fresh slot; meanwhile it cannot come in again.  One that is not there is refused
everything and gets no mail.  A broadcast reaches every peer, or nobody if it could never be
sent. -/
theorem served_as_alone (run : Run turns m) (k : κ) :
    (∀ span, Stays k turns span →
      (span.filterMap (Turn.answer? k), m.find? k) =
          PeerSlot.performAll .connected (span.filterMap (Turn.request? k)) ∧
        m.add k = (false, m) ∧ (m.remove k).1 = true) ∧
    ((∀ span, ¬ Stays k turns span) →
      m.find? k = none ∧ (∀ r, m.perform k r = (r.refusal, m)) ∧ m.remove k = (false, m) ∧
        (m.add k).1 = true ∧
        ∀ order, order.Perm m.keys → ∀ e, (k, e) ∉ (flushEach order m).1) ∧
    ∀ c order, order.Perm m.keys →
      if c.payload.length ≤ maxPayloadSize then (enqueueAll c order m).1 = m.size
      else enqueueAll c order m = (0, m) := by
  refine ⟨fun span stays => ?_, fun away => ?_, fun c order all => ?_⟩
  · have served := run.served stays
    have slot : m.find? k = _ := congrArg Prod.snd served
    have present : (m.find? k).isSome = true := by
      rw [slot, PeerSlot.isSome_performAll]
      rfl
    obtain ⟨o, found⟩ := Option.isSome_iff_exists.1 present
    exact ⟨served, add_of_present found, present⟩
  · have absent := run.absent away
    refine ⟨absent, perform_of_absent absent, remove_of_absent absent,
      by rw [add_of_absent absent], ?_⟩
    intro order all e mem
    have own := flushEach_filter (all.nodup_iff.2 m.unique) m k
    rw [if_neg (by simp [mem_order all, absent]), List.map_eq_nil_iff, List.filter_eq_nil_iff]
      at own
    exact own _ mem (by simp)
  · split
    case isTrue fits => rw [enqueueAll_of_perm all, if_pos fits]
    case isFalse large => exact enqueueAll_of_large large order m

end

/-- A peer comes, is queued a command, goes and comes back; what all are told then is the first that
it is sent. -/
theorem served_as_alone_on_return :
    let old : Command := .message .guaranteed 1 [1]
    let news : Command := .message .guaranteed 1 [2]
    let before : List (Turn Nat) :=
      [.joined 1, .joined 2, ⟨.one 1 (.enqueue old), .slot (.done true)⟩,
        ⟨.remove 1, .slot (.done true)⟩]
    let span : List (Turn Nat) :=
      [⟨.broadcast news, .slot (.count 2)⟩, ⟨.one 2 .flush, .slot (.sent [⟨0, [⟨0, [news]⟩], []⟩])⟩,
        ⟨.flushAll, .mail [(1, ⟨0, [⟨0, [news]⟩], []⟩), (2, ⟨1, [⟨0, [news]⟩], []⟩)]⟩]
    ∃ m, Run (before ++ Turn.joined 1 :: span) m ∧ Stays 1 (before ++ Turn.joined 1 :: span) span ∧
      (span.filterMap (Turn.answer? 1), m.find? 1) =
        PeerSlot.performAll .connected (span.filterMap (Turn.request? 1)) ∧
      span.filterMap (Turn.answer? 1) = [.done true, .sent [⟨0, [⟨0, [news]⟩], []⟩]] := by
  intro old news before span
  have came := (Run.start.next (.add _ 1)).next (.add _ 2)
  have left := (came.next (.one _ 1 (.enqueue old))).next (.remove _ 1)
  have returned := left.next (.add _ 1)
  have told := (returned.next (.broadcast _ news (.refl _))).next (.one _ 2 .flush)
  have run : Run (before ++ Turn.joined 1 :: span) _ :=
    told.next (.flushAll _ (show List.Perm [1, 2] _ from by decide))
  have stays : Stays 1 (before ++ Turn.joined 1 :: span) span := ⟨⟨before, rfl⟩, by decide⟩
  exact ⟨_, run, stays, ((served_as_alone run 1).1 span stays).1, by decide⟩

end PeerMap
end DatagramSession
