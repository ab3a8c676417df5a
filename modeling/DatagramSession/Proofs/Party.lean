import DatagramSession.Proofs.Exchange
/-!
# A party of a session

A party has half of a session and an application: what it receives it hands to its application, it
acknowledges into its own outbound state, and the acknowledgements that it receives release batches
of its own history.  The applications may queue what they like; two parties stay paired
(`paired_take`).
-/
namespace DatagramSession

/-- What an application does with the commands that it is handed. -/
structure Application (η σ : Type) where
  handlers : σ → List η
  /-- The new state of the application and the commands that it queues in answer. -/
  react : Call η → σ → σ × List Command
  /-- Acknowledgements are the receiver's business. -/
  messages : ∀ call s, ∀ c ∈ (react call s).2, c.confirmed? = none

/-- One party; its handlers are itself, for the acknowledgements, and those of its application. -/
structure Party (η σ : Type) extends Half where
  app : σ
  calls : List (Call (Option η)) := []
  /-- How often the application queued a command or asked for an envelope. -/
  spoken : Nat := 0

namespace Party

variable {η σ : Type}

/-- The application queues a command. -/
def say (p : Party η σ) (c : Command) : Party η σ :=
  { p with sending := p.sending.push c, spoken := p.spoken + 1 }

/-- The application asks for an envelope. -/
def keepAlive (p : Party η σ) : Party η σ :=
  { p with sending := p.sending.keepAlive, spoken := p.spoken + 1 }

def flush (p : Party η σ) : Party η σ :=
  { p with sending := p.sending.flush }

/-- The application is handed a command. -/
def hear (a : Application η σ) (call : Call η) (p : Party η σ) : Party η σ :=
  (a.react call p.app).2.foldl say { p with app := (a.react call p.app).1 }

/-- An acknowledgement releases batches. -/
def heed (p : Party η σ) (c : Command) : Party η σ :=
  match c.confirmed? with
  | some order => { p with sending := p.sending.confirm order }
  | none => p

/-- The party as the receiver of the other one's envelopes. -/
def receiver (a : Application η σ) : Receiver (Option η) (Party η σ) where
  handlers p := none :: (a.handlers p.app).map some
  perform
    | .guaranteed none _, p => p
    | .guaranteed (some h) c, p => p.hear a (.guaranteed h c)
    | .acknowledge ack, p => { p with sending := p.sending.push ack }
    | .unreliable none c, p => p.heed c
    | .unreliable (some h) c, p => p.hear a (.unreliable h c)

/-- Takes an envelope. -/
def take (a : Application η σ) (p : Party η σ) (m : Mail) : Party η σ :=
  let (outcome, inbound, q, calls) :=
    (receiver a).recorded.receive p.receiving.inbound m.envelope (p, p.calls)
  { q with receiving := p.receiving.note m outcome inbound, calls }

/-- The calls of an envelope that arrives at a party. -/
def callsOf (a : Application η σ) (p : Party η σ) (m : Mail) : List (Call (Option η)) :=
  if m.envelope.order.isNewer p.receiving.inbound.watermark
  then m.envelope.calls p.receiving.inbound.watermark ((receiver a).handlers p) else []

theorem take_eq (a : Application η σ) (p : Party η σ) (m : Mail) :
    p.take a m = { (receiver a).performAll (p.callsOf a m) p with
      receiving := p.receiving.take m, calls := p.calls ++ p.callsOf a m } := by
  simp only [take, Receiver.receive_eq, Receiver.performAll_recorded, callsOf]
  split
  · rfl
  · simp [Receiver.performAll, Receiving.take]

section
variable {motive : Party η σ → Prop}

/-- An application that is handed a command moves on and queues messages. -/
theorem hear_induct (a : Application η σ) (call : Call η) {p : Party η σ} (start : motive p)
    (app : ∀ p s, motive p → motive { p with app := s })
    (say : ∀ p c, c.confirmed? = none → motive p → motive (p.say c)) : motive (p.hear a call) := by
  have said : ∀ (commands : List Command) (p : Party η σ), (∀ c ∈ commands, c.confirmed? = none) →
      motive p →
      motive (commands.foldl Party.say p) := by
    intro commands
    induction commands with
    | nil => exact fun p _ h => h
    | cons c rest ih =>
      intro p messages h
      exact ih _ (fun d hd => messages d (List.mem_cons_of_mem _ hd))
        (say p c (messages c List.mem_cons_self) h)
  exact said _ _ (a.messages call p.app) (app p _ start)

/-- A call makes the application move on and queue messages, or queues an acknowledgement, or
releases batches. -/
theorem perform_induct (a : Application η σ) (call : Call (Option η)) {p : Party η σ}
    (start : motive p) (app : ∀ p s, motive p → motive { p with app := s })
    (say : ∀ p c, c.confirmed? = none → motive p → motive (p.say c))
    (acknowledge : ∀ p ack, call = .acknowledge ack → motive p →
      motive { p with sending := p.sending.push ack })
    (confirm : ∀ p c order, call = .unreliable none c → c.confirmed? = some order → motive p →
      motive { p with sending := p.sending.confirm order }) :
    motive ((receiver a).perform call p) := by
  match call with
  | .guaranteed none _ => exact start
  | .guaranteed (some _) _ => exact hear_induct a _ start app say
  | .acknowledge ack => exact acknowledge p ack rfl start
  | .unreliable none c =>
    simp only [receiver, heed]
    cases confirms : c.confirmed? with
    | none => exact start
    | some order => exact confirm p c order rfl confirms start
  | .unreliable (some _) _ => exact hear_induct a _ start app say

/-- The same for all calls of an envelope. -/
theorem handle_induct (a : Application η σ) (m : Mail) {p : Party η σ} (start : motive p)
    (app : ∀ p s, motive p → motive { p with app := s })
    (say : ∀ p c, c.confirmed? = none → motive p → motive (p.say c))
    (acknowledge : m.envelope.order.isNewer p.receiving.inbound.watermark → m.envelope.asksForAck →
      ∀ p, motive p →
      motive { p with sending := p.sending.push (.ack m.envelope.order) })
    (confirm : ∀ p, ∀ c ∈ m.envelope.unreliable, ∀ order, c.confirmed? = some order → motive p →
      motive { p with sending := p.sending.confirm order }) :
    motive ((receiver a).performAll (p.callsOf a m) p) := by
  refine Receiver.performAll_induct (receiver a) start ?_
  intro call made p' h
  unfold callsOf at made
  split at made
  case isTrue newer =>
    have belongs := Call.belongs_of_mem_calls made
    refine perform_induct a call h app say ?_ ?_
    · rintro p' ack rfl h
      obtain ⟨asks, rfl⟩ := belongs
      exact acknowledge newer asks p' h
    · rintro p' c order rfl confirms h
      exact confirm p' c belongs order confirms h
  case isFalse => cases made

end

/-- The halves of two parties are paired. -/
def Paired (p q : Party η σ) : Prop :=
  DatagramSession.Paired p.toHalf q.toHalf

variable {p q : Party η σ}

theorem paired_say (h : Paired p q) {c : Command} (message : c.confirmed? = none) :
    Paired (p.say c) q :=
  ⟨h.1.push c, h.2.push_back (truthful_of_message message)⟩

theorem paired_keepAlive (h : Paired p q) : Paired p.keepAlive q :=
  ⟨h.1.keepAlive, h.2.keepAlive_back⟩

theorem paired_flush (h : Paired p q) : Paired p.flush q :=
  ⟨h.1.flush, h.2.flush_back⟩

/-- What taking a new envelope does to the sending of a party. -/
theorem does_handle (a : Application η σ) (m : Mail) (p : Party η σ) :
    Sending.Does (some m.envelope) p.sending ((receiver a).performAll (p.callsOf a m) p).sending ∧
      ((receiver a).performAll (p.callsOf a m) p).sending.mail = p.sending.mail := by
  refine handle_induct a m
    (motive := fun p' => Sending.Does (some m.envelope) p.sending p'.sending ∧
    p'.sending.mail = p.sending.mail) ⟨.rest _, rfl⟩ ?_ ?_ ?_ ?_
  · exact fun _ _ h => h
  · exact fun _ c message h => ⟨h.1.push c message, h.2⟩
  · exact fun _ _ _ h => ⟨h.1.acknowledge rfl, h.2⟩
  · exact fun _ _ carried _ confirms h => ⟨h.1.confirm rfl carried confirms, h.2⟩

/-- Taking any envelope of the other party keeps the parties paired. -/
theorem paired_take (h : Paired p q) (a : Application η σ) {m : Mail} (sent : m ∈ q.sending.mail)
    (near : p.receiving.Compares m) (few : p.sending.mail.length ≤ halfRange) :
    Paired (p.take a m) q := by
  rw [take_eq]
  by_cases newer : m.envelope.order.isNewer p.receiving.inbound.watermark
  · obtain ⟨does, mail⟩ := does_handle a m p
    exact DatagramSession.Paired.hears h sent near newer does (mail ▸ few)
  · have old : m.envelope.order.isNewer p.receiving.inbound.watermark = false := by
      simpa using newer
    rw [callsOf, if_neg newer, Receiving.take_of_not_isNewer old]
    exact h

/-- The registrations of a listener with the application are those with the party. -/
theorem handedTo_calls [DecidableEq η] (p : Party η σ) (a : Application η σ) (h : η) (e : Envelope)
    (watermark : Option OrderNumber) :
    handedTo (some h) (e.calls watermark ((receiver a).handlers p))
      = (e.freshCommands watermark).flatMap (List.replicate ((a.handlers p.app).count h)) := by
  rw [DatagramSession.handedTo_calls]
  congr 2
  simp only [receiver]
  induction a.handlers p.app with
  | nil => simp
  | cons listener rest ih =>
    by_cases same : listener = h
    · simpa [same] using ih
    · simpa [same] using ih

/-- A listener is handed what is new in the envelope, once for each of its registrations. -/
theorem handedTo_take [DecidableEq η] (p : Party η σ) (a : Application η σ) (m : Mail) {h : η}
    {n : Nat} (registered : (a.handlers p.app).count h = n)
    (handed : handedTo (some h) p.calls = p.receiving.delivered.flatMap (List.replicate n)) :
    handedTo (some h) (p.take a m).calls = (p.take a m).receiving.delivered.flatMap
      (List.replicate n) := by
  rw [take_eq]
  simp only [handedTo_append, handed, callsOf]
  by_cases newer : m.envelope.order.isNewer p.receiving.inbound.watermark
  · rw [Receiving.take_of_isNewer newer, if_pos newer, handedTo_calls, registered,
      List.flatMap_append]
  · rw [Receiving.take_of_not_isNewer (by simpa using newer), if_neg newer]
    exact List.append_nil _

/-- Applications only ever say more, and while they say nothing, acknowledgements and confirmations
are all that is done to the sending. -/
theorem take_unspoken {K : Sending → Prop} (p : Party η σ) (a : Application η σ) (m : Mail)
    (start : K p.sending)
    (acknowledge : m.envelope.asksForAck → ∀ s, K s → K (s.push (.ack m.envelope.order)))
    (confirm : ∀ s order, K s → K (s.confirm order)) :
    p.spoken ≤ (p.take a m).spoken ∧ ((p.take a m).spoken = p.spoken → K (p.take a m).sending) := by
  rw [take_eq]
  refine handle_induct a m
    (motive := fun p' => p.spoken ≤ p'.spoken ∧ (p'.spoken = p.spoken → K p'.sending))
    ⟨Nat.le_refl _, fun _ => start⟩ ?_ ?_ ?_ ?_
  · exact fun p' s h => h
  · intro p' c _ h
    have more : (p'.say c).spoken = p'.spoken + 1 := rfl
    exact ⟨by omega, fun same => by omega⟩
  · exact fun _ asks p' h => ⟨h.1, fun same => acknowledge asks _ (h.2 same)⟩
  · exact fun p' c _ order _ h => ⟨h.1, fun same => confirm _ order (h.2 same)⟩

end Party
end DatagramSession
