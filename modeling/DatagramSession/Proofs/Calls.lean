import DatagramSession.Delivery
import DatagramSession.Inbound
/-!
# The calls of an envelope

Processing a new envelope performs the calls that `Envelope.calls` lists, in that order, and nothing
else (`receive_eq`).  `Receiver.recorded` keeps a record of the calls; `handedTo` and `acksGiven`
read from the record what one handler was handed guaranteed, and which acknowledgements were given.
`Told` says of what kind the deliveries are that an application has been given meanwhile.
-/
namespace DatagramSession

namespace Inbound

/-- What becomes of an envelope, whoever listens. -/
def take (inbound : Inbound) (e : Envelope) : EnvelopeOutcome × Inbound :=
  if e.order.isNewer inbound.watermark then
    (.accepted ((e.freshCommands inbound.watermark).length + e.unreliable.length) e.asksForAck,
      ⟨some e.order⟩)
  else (.stale, inbound)

end Inbound

namespace Receiver

variable {η σ : Type}

/-- Performs calls one after the other. -/
def performAll (r : Receiver η σ) (calls : List (Call η)) (s : σ) : σ :=
  calls.foldl (fun s call => r.perform call s) s

theorem performAll_append (r : Receiver η σ) (first second : List (Call η)) (s : σ) :
    r.performAll (first ++ second) s = r.performAll second (r.performAll first s) :=
  List.foldl_append

/-- What each of the calls keeps, all of them keep. -/
theorem performAll_induct (r : Receiver η σ) {motive : σ → Prop} {calls : List (Call η)} {s : σ}
    (start : motive s) (step : ∀ call ∈ calls, ∀ s, motive s → motive (r.perform call s)) :
    motive (r.performAll calls s) := by
  induction calls generalizing s with
  | nil => exact start
  | cons call rest ih =>
    exact ih (step call List.mem_cons_self s start) fun call hc =>
      step call (List.mem_cons_of_mem _ hc)

/-- One of the calls leads from what all of them keep to something else that all of them keep. -/
theorem performAll_reaches (r : Receiver η σ) (before after : σ → Prop) {calls : List (Call η)}
    {call : Call η} (made : call ∈ calls) {s : σ} (start : before s)
    (kept : ∀ c s, before s → before (r.perform c s))
    (reached : ∀ s, before s → after (r.perform call s))
    (stays : ∀ c s, after s → after (r.perform c s)) :
    after (r.performAll calls s) := by
  obtain ⟨first, rest, rfl⟩ := List.append_of_mem made
  rw [performAll_append]
  have early : before (r.performAll first s) := performAll_induct r start fun c _ => kept c
  exact performAll_induct (s := r.perform call (r.performAll first s)) r (reached _ early) fun c
    _ => stays c

theorem handTo_eq (r : Receiver η σ) (call : η → Call η) (handlers : List η) (s : σ) :
    r.handTo call handlers s = r.performAll (handlers.map call) s := by
  simp [handTo, performAll, List.foldl_map]

theorem handAll_eq (r : Receiver η σ) (call : η → Command → Call η) (handlers : List η)
    (commands : List Command) (s : σ) :
    r.handAll call handlers commands s =
      r.performAll (commands.flatMap fun c => handlers.map (call · c)) s := by
  induction commands generalizing s with
  | nil => rfl
  | cons c rest ih =>
    rw [List.flatMap_cons, performAll_append, ← ih, ← handTo_eq]
    rfl

/-- A new envelope is processed by its calls; another one changes nothing. -/
theorem receive_eq (r : Receiver η σ) (inbound : Inbound) (e : Envelope) (s : σ) :
    r.receive inbound e s = ((inbound.take e).1, (inbound.take e).2,
      if e.order.isNewer inbound.watermark then
        r.performAll (e.calls inbound.watermark (r.handlers s)) s else s) := by
  by_cases newer : e.order.isNewer inbound.watermark
  · simp only [receive, Inbound.take, newer, if_true, Envelope.calls, performAll_append,
      ← handAll_eq]
    by_cases asks : e.asksForAck
    · simp [asks, performAll]
    · simp [asks, performAll]
  · simp [receive, Inbound.take, newer]

/-- The same receiver with a record of its calls. -/
def recorded (r : Receiver η σ) : Receiver η (σ × List (Call η)) where
  handlers s := r.handlers s.1
  perform call s := (r.perform call s.1, s.2 ++ [call])

theorem performAll_recorded (r : Receiver η σ) (calls : List (Call η)) (s : σ × List (Call η)) :
    r.recorded.performAll calls s = (r.performAll calls s.1, s.2 ++ calls) := by
  induction calls generalizing s with
  | nil => simp [performAll]
  | cons call rest ih =>
    have tail := ih (r.recorded.perform call s)
    simpa [performAll, recorded] using tail

end Receiver

/-- The guaranteed command of a call to one handler. -/
def Call.guaranteedTo? {η : Type} [DecidableEq η] (h : η) : Call η → Option Command
  | .guaranteed listener c => if listener = h then some c else none
  | _ => none

/-- The acknowledgement that a call gives. -/
def Call.ack? {η : Type} : Call η → Option Command
  | .acknowledge ack => some ack
  | _ => none

/-- A call that an envelope gives rise to: its acknowledgement names it, and its commands are among
the envelope's. -/
def Call.Belongs {η : Type} (e : Envelope) (watermark : Option OrderNumber) : Call η → Prop
  | .guaranteed _ c => c ∈ e.freshCommands watermark
  | .acknowledge ack => e.asksForAck ∧ ack = .ack e.order
  | .unreliable _ c => c ∈ e.unreliable

/-- The guaranteed commands that one handler was handed. -/
def handedTo {η : Type} [DecidableEq η] (h : η) (calls : List (Call η)) : List Command :=
  calls.filterMap (Call.guaranteedTo? h)

/-- The acknowledgements that were given. -/
def acksGiven {η : Type} (calls : List (Call η)) : List Command :=
  calls.filterMap Call.ack?

section
variable {η : Type}

@[simp] theorem handedTo_append [DecidableEq η] (h : η) (first second : List (Call η)) :
    handedTo h (first ++ second) = handedTo h first ++ handedTo h second :=
  List.filterMap_append

@[simp] theorem acksGiven_append (first second : List (Call η)) :
    acksGiven (first ++ second) = acksGiven first ++ acksGiven second :=
  List.filterMap_append

theorem Call.belongs_of_mem_calls {e : Envelope} {watermark : Option OrderNumber}
    {handlers : List η} {call : Call η} (h : call ∈ e.calls watermark handlers) :
    call.Belongs e watermark := by
  simp only [Envelope.calls, List.mem_append, List.mem_flatMap, List.mem_map] at h
  rcases h with (⟨c, fresh, listener, _, rfl⟩ | ack) | ⟨c, unreliable, listener, _, rfl⟩
  · exact fresh
  · split at ack
    case isTrue asks =>
      rw [List.mem_singleton.1 ack]
      exact ⟨asks, rfl⟩
    case isFalse => cases ack
  · exact unreliable

theorem Call.mem_calls_guaranteed {e : Envelope} {watermark : Option OrderNumber}
    {handlers : List η} {h : η} {c : Command} : Call.guaranteed h c ∈ e.calls watermark handlers ↔
    h ∈ handlers ∧ c ∈ e.freshCommands watermark := by
  constructor
  · intro made
    simp only [Envelope.calls, List.mem_append, List.mem_flatMap, List.mem_map] at made
    rcases made with (⟨_, fresh, _, listens, ⟨⟩⟩ | ack) | ⟨_, _, _, _, ⟨⟩⟩
    · exact ⟨listens, fresh⟩
    · split at ack <;> simp at ack
  · rintro ⟨listens, fresh⟩
    refine List.mem_append_left _ (List.mem_append_left _ (List.mem_flatMap.2 ⟨c, fresh, ?_⟩))
    exact List.mem_map_of_mem listens

/-- Calls of which none counts leave nothing. -/
theorem filterMap_handAll_eq_nil {f : Call η → Option Command} {call : η → Command → Call η}
    (silent : ∀ h c, f (call h c) = none) (commands : List Command) (handlers : List η) :
    (commands.flatMap fun c => handlers.map (call · c)).filterMap f = [] := by
  apply List.filterMap_eq_nil_iff.2
  intro made found
  obtain ⟨c, _, found⟩ := List.mem_flatMap.1 found
  obtain ⟨h, _, rfl⟩ := List.mem_map.1 found
  exact silent h c

/-- Calls of one kind hand to a listener what its kind of call keeps, once for each of its
registrations. -/
theorem filterMap_handAll [DecidableEq η] {f : Call η → Option Command}
    {call : η → Command → Call η} {h : η} {keeps : Command → Bool}
    (law : ∀ l c, f (call l c) = if l = h ∧ keeps c = true then some c else none)
    (commands : List Command) (handlers : List η) :
    (commands.flatMap fun c => handlers.map (call · c)).filterMap f =
      (commands.filter keeps).flatMap (List.replicate (handlers.count h)) := by
  have one (c : Command) : (handlers.map (call · c)).filterMap f =
      if keeps c then List.replicate (handlers.count h) c else [] := by
    induction handlers with
    | nil => simp
    | cons l rest ih =>
      by_cases same : l = h
      · by_cases kept : keeps c <;> simp [law, same, kept, ih, List.replicate_succ]
      · simp [law, same, ih]
  induction commands with
  | nil => rfl
  | cons c rest ih =>
    rw [List.flatMap_cons, List.filterMap_append, one, ih]
    by_cases kept : keeps c <;> simp [kept]

/-- A handler is handed each new guaranteed command once for each of its registrations. -/
theorem handedTo_calls [DecidableEq η] (h : η) (e : Envelope) (watermark : Option OrderNumber)
    (handlers : List η) :
    handedTo h (e.calls watermark handlers)
      = (e.freshCommands watermark).flatMap (List.replicate (handlers.count h)) := by
  have guaranteed (commands : List Command) :
      handedTo h (commands.flatMap fun c => handlers.map (Call.guaranteed · c))
        = commands.flatMap (List.replicate (handlers.count h)) := by
    have own (listener : η) (c : Command) :
        Call.guaranteedTo? h (.guaranteed listener c) = if listener = h ∧
        true = true then some c else none := by
      simp [Call.guaranteedTo?]
    have all := filterMap_handAll own commands handlers
    rwa [List.filter_eq_self.2 fun _ _ => rfl] at all
  have unreliable :
      handedTo h (e.unreliable.flatMap fun c => handlers.map (Call.unreliable · c)) = [] :=
    filterMap_handAll_eq_nil (fun _ _ => rfl) _ _
  have ack : handedTo h (if e.asksForAck then [Call.acknowledge (.ack e.order)] else []) = [] := by
    split <;> rfl
  rw [Envelope.calls, handedTo_append, handedTo_append, guaranteed, unreliable, ack,
    List.append_nil, List.append_nil]

/-- An envelope that carries batches is acknowledged once, by its own number. -/
theorem acksGiven_calls (e : Envelope) (watermark : Option OrderNumber) (handlers : List η) :
    acksGiven (e.calls watermark handlers) = if e.asksForAck then [.ack e.order] else [] := by
  have guaranteed :
      acksGiven ((e.freshCommands watermark).flatMap fun c => handlers.map (Call.guaranteed · c))
        = [] :=
    filterMap_handAll_eq_nil (fun _ _ => rfl) _ _
  have unreliable :
      acksGiven (e.unreliable.flatMap fun c => handlers.map (Call.unreliable · c)) = [] :=
    filterMap_handAll_eq_nil (fun _ _ => rfl) _ _
  rw [Envelope.calls, acksGiven_append, acksGiven_append, guaranteed, unreliable, List.nil_append,
    List.append_nil]
  split <;> rfl

end

/-- All commands that an envelope carries. -/
def Envelope.commands (e : Envelope) : List Command :=
  e.guaranteed.flatMap Batch.commands ++ e.unreliable

theorem Envelope.freshCommands_subset (e : Envelope) (watermark : Option OrderNumber) :
    e.freshCommands watermark ⊆ e.commands := by
  intro c fresh
  obtain ⟨b, hb, hc⟩ := List.mem_flatMap.1 fresh
  exact List.mem_append_left _ (List.mem_flatMap.2 ⟨b, (List.mem_filter.1 hb).1, hc⟩)

/-- The deliveries that have been made meanwhile are of one kind; earlier ones may have been taken
away. -/
def Told (kind : Delivery → Prop) (before after : List Delivery) : Prop :=
  ∃ new, (after = before ++ new ∨ after = new) ∧ ∀ d ∈ new, kind d

namespace Told

variable {kind other : Delivery → Prop} {before between after : List Delivery}

theorem of_eq (same : after = before) : Told kind before after :=
  ⟨[], Or.inl (by simp [same]), nofun⟩

theorem deliver (d : Delivery) (own : kind d) : Told kind before (before ++ [d]) :=
  ⟨[d], Or.inl rfl, fun _ hd => List.mem_singleton.1 hd ▸ own⟩

theorem taken : Told kind before [] :=
  ⟨[], Or.inr rfl, nofun⟩

theorem trans (first : Told kind before between) (second : Told kind between after) :
    Told kind before after := by
  obtain ⟨new, early, own⟩ := first
  obtain ⟨more, late, ownMore⟩ := second
  have all : ∀ d ∈ new ++ more, kind d := by
    intro d hd
    rcases List.mem_append.1 hd with old | recent
    · exact own d old
    · exact ownMore d recent
  rcases late with rfl | rfl
  · refine ⟨new ++ more, ?_, all⟩
    rcases early with rfl | rfl
    · exact Or.inl (List.append_assoc _ _ _)
    · exact Or.inr rfl
  · exact ⟨after, Or.inr rfl, ownMore⟩

/-- If nothing is of the kind, deliveries may have been taken away and that is all. -/
theorem suffix (told : Told kind before after) (none : ∀ d, ¬ kind d) : after <:+ before := by
  obtain ⟨new, grown, own⟩ := told
  obtain rfl : new = [] := List.eq_nil_iff_forall_not_mem.2 fun d mem => none d (own d mem)
  rcases grown with rfl | rfl
  · simp
  · exact List.nil_suffix

theorem mono (told : Told kind before after) (wider : ∀ d, kind d → other d) :
    Told other before after := by
  obtain ⟨new, grown, own⟩ := told
  exact ⟨new, grown, fun d hd => wider d (own d hd)⟩

end Told

end DatagramSession
