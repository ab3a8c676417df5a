import DatagramSession.Proofs.RoundTrip
/-!
# Two parties

Two parties talk over a network that keeps every envelope for ever and delivers any of them at any
time, any number of times.  `round_trip_heals` says what one round trip does after any such past,
and that nothing is due any more after the trip that acknowledges it.
-/
namespace DatagramSession

namespace Party

variable {η σ : Type}

/-- What a party may do when `incoming` is what the other one has sent. -/
inductive Act (a : Application η σ) (incoming : List Mail) : Party η σ → Party η σ → Prop where
  | say (p : Party η σ) (c : Command) (message : c.confirmed? = none) : Act a incoming p (p.say c)
  | keepAlive (p : Party η σ) : Act a incoming p p.keepAlive
  | flush (p : Party η σ) : Act a incoming p p.flush
  | take (p : Party η σ) (m : Mail) (sent : m ∈ incoming) : Act a incoming p (p.take a m)
  /-- Listeners come and go. -/
  | listen (p : Party η σ) (s : σ) : Act a incoming p { p with app := s }

variable {a : Application η σ} {incoming : List Mail} {p p' q : Party η σ}

theorem spoken_le_take (p : Party η σ) (a : Application η σ) (m : Mail) :
    p.spoken ≤ (p.take a m).spoken :=
  (take_unspoken (K := fun _ => True) p a m trivial (fun _ _ _ => trivial) fun _ _ _ => trivial).1

theorem act_spoken (act : Act a incoming p p') : p.spoken ≤ p'.spoken := by
  cases act with
  | say | keepAlive => exact Nat.le_succ _
  | flush | listen => exact Nat.le_refl _
  | take m => exact spoken_le_take p a m

theorem act_mail (act : Act a incoming p p') : p.sending.mail.length ≤ p'.sending.mail.length := by
  cases act with
  | flush => exact (p.sending.mail_length_flush).1
  | take m => rw [mail_take]
  | say | keepAlive | listen => exact Nat.le_refl _

theorem act_paired (act : Act a q.sending.mail p p') (h : Paired p q)
    (few : p.sending.mail.length ≤ halfRange) (fewBack : q.sending.mail.length ≤ halfRange) :
    Paired p' q := by
  cases act with
  | say c message => exact paired_say h message
  | keepAlive => exact paired_keepAlive h
  | flush => exact paired_flush h
  | take m sent => exact paired_take h a sent (h.2.compares fewBack sent) few
  | listen s => exact ⟨h.1, h.2⟩

theorem act_handed [DecidableEq η] {h : η} {n : Nat} (act : Act a incoming p p')
    (registered : (a.handlers p.app).count h = n)
    (handed : handedTo (some h) p.calls = p.receiving.delivered.flatMap (List.replicate n)) :
    handedTo (some h) p'.calls = p'.receiving.delivered.flatMap (List.replicate n) := by
  cases act with
  | take m => exact handedTo_take p a m registered handed
  | say | keepAlive | flush | listen => exact handed

/-- A party with nothing due that is offered nothing new stays as it is until its application
speaks. -/
theorem act_idle (act : Act a incoming p p') (idle : p.sending.outbound.isDue = false)
    (old : ∀ m ∈ incoming, m.envelope.order.isNewer p.receiving.inbound.watermark = false)
    (silent : p'.spoken = p.spoken) : p'.sending = p.sending ∧ p'.receiving = p.receiving := by
  cases act with
  | say c => exact absurd silent (Nat.succ_ne_self _)
  | keepAlive => exact absurd silent (Nat.succ_ne_self _)
  | flush => exact ⟨Sending.flush_of_not_isDue idle, rfl⟩
  | take m sent =>
    have ignored : p.callsOf a m = [] := by rw [callsOf, old m sent]; rfl
    rw [take_eq, ignored, Receiving.take_of_not_isNewer (old m sent)]
    exact ⟨rfl, rfl⟩
  | listen s => exact ⟨rfl, rfl⟩

end Party

/-- The two parties; what is on the network is the mail of each. -/
structure TwoWay (η σ : Type) where
  left : Party η σ
  right : Party η σ

namespace TwoWay

variable {η σ : Type}

/-- Parties that have not done anything yet. -/
def fresh (s t : σ) : TwoWay η σ := ⟨{ app := s }, { app := t }⟩

/-- One party acts. -/
inductive Step (a b : Application η σ) : TwoWay η σ → TwoWay η σ → Prop where
  | left (w : TwoWay η σ) (p : Party η σ) (act : Party.Act a w.right.sending.mail w.left p) :
      Step a b w { w with left := p }
  | right (w : TwoWay η σ) (q : Party η σ) (act : Party.Act b w.left.sending.mail w.right q) :
      Step a b w { w with right := q }

/-- What can be reached from `w₀` while the listeners of both parties stay in a certain
condition. -/
inductive Run (a b : Application η σ) (steady : TwoWay η σ → Prop) (w₀ : TwoWay η σ) :
    TwoWay η σ → Prop where
  | start : steady w₀ → Run a b steady w₀ w₀
  | next {w w' : TwoWay η σ} : Run a b steady w₀ w → Step a b w w' → steady w' →
      Run a b steady w₀ w'

/-- The left party flushes and the right one takes the envelope. -/
def toRight (w : TwoWay η σ) (b : Application η σ) : TwoWay η σ :=
  ⟨w.left.flush, w.right.hearFrom b w.left⟩

/-- The right party flushes and the left one takes the envelope. -/
def toLeft (w : TwoWay η σ) (a : Application η σ) : TwoWay η σ :=
  ⟨w.left.hearFrom a w.right, w.right.flush⟩

section
variable {a b : Application η σ} {steady : TwoWay η σ → Prop} {w₀ w w' : TwoWay η σ}

theorem step_mail (step : Step a b w w') :
    w.left.sending.mail.length ≤ w'.left.sending.mail.length ∧
    w.right.sending.mail.length ≤ w'.right.sending.mail.length := by
  cases step with
  | left p act => exact ⟨Party.act_mail act, Nat.le_refl _⟩
  | right q act => exact ⟨Nat.le_refl _, Party.act_mail act⟩

theorem step_paired (step : Step a b w w') (h : Party.Paired w.left w.right)
    (few : w.left.sending.mail.length ≤ halfRange)
    (fewBack : w.right.sending.mail.length ≤ halfRange) :
    Party.Paired w'.left w'.right := by
  cases step with
  | left p act => exact Party.act_paired act h few fewBack
  | right q act => exact (Party.act_paired act h.symm fewBack few).symm

/-- Whatever the network has done, the parties agree. -/
theorem Run.paired {s t : σ} (run : Run a b steady (fresh s t) w)
    (few : w.left.sending.mail.length ≤ halfRange)
    (fewBack : w.right.sending.mail.length ≤ halfRange) : Party.Paired w.left w.right := by
  induction run with
  | start _ => exact ⟨Linked.start, Linked.start⟩
  | next _ step _ ih =>
    obtain ⟨longer, longerBack⟩ := step_mail step
    have few := Nat.le_trans longer few
    have fewBack := Nat.le_trans longerBack fewBack
    exact step_paired step (ih few fewBack) few fewBack

theorem Run.holds (run : Run a b steady w₀ w) : steady w := by
  cases run <;> assumption

theorem Run.handedRight [DecidableEq η] {h : η} {n : Nat} {s t : σ}
    (run : Run a b steady (fresh s t) w)
    (registered : ∀ w, steady w → (b.handlers w.right.app).count h = n) :
    handedTo (some h) w.right.calls = w.right.receiving.delivered.flatMap (List.replicate n) := by
  induction run with
  | start _ => rfl
  | next before step _ ih =>
    cases step with
    | left => exact ih
    | right q act => exact Party.act_handed act (registered _ before.holds) ih

theorem Run.handedLeft [DecidableEq η] {h : η} {n : Nat} {s t : σ}
    (run : Run a b steady (fresh s t) w)
    (registered : ∀ w, steady w → (a.handlers w.left.app).count h = n) :
    handedTo (some h) w.left.calls = w.left.receiving.delivered.flatMap (List.replicate n) := by
  induction run with
  | start _ => rfl
  | next before step _ ih =>
    cases step with
    | left p act => exact Party.act_handed act (registered _ before.holds) ih
    | right => exact ih

/-- Nothing is due and nothing on the network is new. -/
structure Settled (w : TwoWay η σ) : Prop where
  left : w.left.sending.outbound.isDue = false
  right : w.right.sending.outbound.isDue = false
  leftOld : ∀ m ∈ w.right.sending.mail,
    m.envelope.order.isNewer w.left.receiving.inbound.watermark = false
  rightOld : ∀ m ∈ w.left.sending.mail,
    m.envelope.order.isNewer w.right.receiving.inbound.watermark = false

theorem step_settled (step : Step a b w w') (h : Settled w)
    (silent : w'.left.spoken = w.left.spoken) (silentBack : w'.right.spoken = w.right.spoken) :
    Settled w' := by
  cases step with
  | left p act =>
    obtain ⟨sending, receiving⟩ := Party.act_idle act h.left h.leftOld silent
    refine ⟨?_, h.right, ?_, ?_⟩
    · rw [sending]
      exact h.left
    · rw [receiving]
      exact h.leftOld
    · rw [sending]
      exact h.rightOld
  | right q act =>
    obtain ⟨sending, receiving⟩ := Party.act_idle act h.right h.rightOld silentBack
    refine ⟨h.left, ?_, ?_, ?_⟩
    · rw [sending]
      exact h.right
    · rw [sending]
      exact h.leftOld
    · rw [receiving]
      exact h.rightOld

theorem step_spoken (step : Step a b w w') :
    w.left.spoken ≤ w'.left.spoken ∧ w.right.spoken ≤ w'.right.spoken := by
  cases step with
  | left p act => exact ⟨Party.act_spoken act, Nat.le_refl _⟩
  | right q act => exact ⟨Nat.le_refl _, Party.act_spoken act⟩

/-- Until an application speaks, a settled exchange stays settled whatever old envelopes arrive. -/
theorem Run.settled (run : Run a b steady w₀ w) (h : Settled w₀) :
    w₀.left.spoken ≤ w.left.spoken ∧ w₀.right.spoken ≤ w.right.spoken ∧
    (w.left.spoken = w₀.left.spoken → w.right.spoken = w₀.right.spoken → Settled w) := by
  induction run with
  | start _ => exact ⟨Nat.le_refl _, Nat.le_refl _, fun _ _ => h⟩
  | next _ step _ ih =>
    obtain ⟨more, moreBack⟩ := step_spoken step
    obtain ⟨le, leBack, settled⟩ := ih
    refine ⟨Nat.le_trans le more, Nat.le_trans leBack moreBack, fun silent silentBack => ?_⟩
    exact step_settled step (settled (by omega) (by omega)) (by omega) (by omega)

end

/-! ## One round trip -/

section
variable {a b : Application η σ} {w : TwoWay η σ}

/-- Of what the sender has sent so far nothing is new to the receiver after a trip. -/
theorem old_trip {p q : Party η σ} (h : Party.Paired p q) (b : Application η σ)
    (few : p.flush.sending.mail.length ≤ halfRange) (fewBack : q.sending.mail.length ≤ halfRange)
    (due : p.sending.outbound.isDue = true) :
    ∀ m ∈ p.flush.sending.mail,
      m.envelope.order.isNewer (q.hearFrom b p).receiving.inbound.watermark = false := by
  intro m sent
  have trip := (Party.paired_trip h b few fewBack).1
  have grown : p.flush.sending.mail.length = p.sending.mail.length + 1 := by
    rw [Party.flush, Sending.flush_of_isDue due, List.length_append, List.length_singleton]
  have near : ∀ w ∈ q.receiving.watermark, Near p.sending.mail.length w := by
    intro w hw
    have := h.1.agree.sent w hw
    constructor <;> omega
  have reached : Reached (q.hearFrom b p).receiving.watermark m.position := by
    have := (trip.agree.counter_lt.1 m sent).1
    exact ⟨_, Party.watermark_trip h b near due, by omega⟩
  rw [trip.agree.isNewer_iff sent (trip.compares few sent)]
  simpa using reached

/-- The parties stay paired on a round trip. -/
theorem paired_toLeft_toRight (h : Party.Paired w.left w.right) (a b : Application η σ)
    (few : w.left.sending.mail.length < halfRange)
    (fewBack : w.right.sending.mail.length < halfRange) :
    Party.Paired (w.toRight b).left (w.toRight b).right ∧
    Party.Paired ((w.toRight b).toLeft a).left ((w.toRight b).toLeft a).right := by
  have grown := (w.left.sending.mail_length_flush).2
  have grownBack := ((w.toRight b).right.sending.mail_length_flush).2
  have there : Party.Paired (w.toRight b).left (w.toRight b).right :=
    Party.paired_trip h b (Nat.le_trans grown few) (Nat.le_of_lt fewBack)
  refine ⟨there, (Party.paired_trip there.symm a ?_ (Nat.le_trans grown few)).symm⟩
  simp only [toRight, Party.mail_hearFrom] at grownBack
  exact Nat.le_trans grownBack fewBack

/-- The history of the left party is empty after its round trip. -/
theorem history_toLeft_toRight (h : Party.Paired w.left w.right) (a b : Application η σ)
    (few : w.left.sending.mail.length < halfRange)
    (fewBack : w.right.sending.mail.length < halfRange) :
    ((w.toRight b).toLeft a).left.sending.outbound.history = [] := by
  refine Party.history_answered h a b few (Nat.le_of_lt fewBack) fun p hp => ?_
  have := h.2.agree.sent p hp
  constructor <;> omega

/-- One more trip that nobody says anything on leaves nothing due. -/
theorem not_isDue_again (h : Party.Paired w.left w.right) (a b : Application η σ)
    (few : w.left.sending.mail.length < halfRange)
    (fewBack : w.right.sending.mail.length < halfRange)
    (silent : (((w.toRight b).toLeft a).toRight b).left.spoken = w.left.spoken)
    (silentBack : (((w.toRight b).toLeft a).toRight b).right.spoken = (w.toRight b).right.spoken) :
    (((w.toRight b).toLeft a).toRight b).left.sending.outbound.isDue = false ∧
    (((w.toRight b).toLeft a).toRight b).right.sending.outbound.isDue = false := by
  have grown := (w.left.sending.mail_length_flush).2
  obtain ⟨there, back⟩ := paired_toLeft_toRight h a b few fewBack
  have history := history_toLeft_toRight h a b few fewBack
  have guaranteed : ((w.toRight b).toLeft a).left.sending.outbound.guaranteed = [] :=
    Party.guaranteed_hearFrom a h.1.agree.sound.guaranteed_flush silent
  refine ⟨Sending.not_isDue_flush guaranteed history, ?_⟩
  have answered : (((w.toRight b).toLeft a).toRight b).right.sending.outbound.history = [] := by
    refine Party.history_answered there.symm b a ?_ (Nat.le_trans grown few)
      (Party.near_trip h b few)
    simpa only [toRight, Party.mail_hearFrom] using fewBack
  have asked : (((w.toRight b).toLeft a).toRight b).right.sending.outbound.asked = false :=
    Party.asked_hearFrom b guaranteed history Sending.asked_flush silentBack
  simp [Outbound.isDue, answered, asked]

/-- If both parties had something to send, nothing that is still under way is new. -/
theorem settled_again (h : Party.Paired w.left w.right) (a b : Application η σ)
    (few : (((w.toRight b).toLeft a).toRight b).left.sending.mail.length ≤ halfRange)
    (fewBack : (((w.toRight b).toLeft a).toRight b).right.sending.mail.length ≤ halfRange)
    (due : w.left.sending.outbound.isDue = true)
    (dueBack : (w.toRight b).right.sending.outbound.isDue = true)
    (silent : (((w.toRight b).toLeft a).toRight b).left.spoken = w.left.spoken)
    (silentBack : (((w.toRight b).toLeft a).toRight b).right.spoken = (w.toRight b).right.spoken) :
    Settled (((w.toRight b).toLeft a).toRight b) := by
  have there_length : (w.toRight b).left.sending.mail.length = w.left.sending.mail.length + 1 := by
    simp [toRight, Party.flush, Sending.flush_of_isDue due]
  have back_length : ((w.toRight b).toLeft a).right.sending.mail.length =
      w.right.sending.mail.length + 1 := by
    rw [toLeft, Party.flush, Sending.flush_of_isDue dueBack, List.length_append,
      List.length_singleton, toRight, Party.mail_hearFrom]
  have left_mail : ((w.toRight b).toLeft a).left.sending.mail = (w.toRight b).left.sending.mail :=
    Party.mail_hearFrom _ a _
  have right_mail : (((w.toRight b).toLeft a).toRight b).right.sending.mail
      = ((w.toRight b).toLeft a).right.sending.mail := Party.mail_hearFrom _ b _
  have longer := (((w.toRight b).toLeft a).left.sending.mail_length_flush).1
  have few_left : w.left.sending.mail.length < halfRange := by
    rw [left_mail, there_length] at longer
    exact Nat.le_trans longer few
  have few_right : w.right.sending.mail.length < halfRange := by
    rw [right_mail, back_length] at fewBack
    exact fewBack
  obtain ⟨there, back⟩ := paired_toLeft_toRight h a b few_left few_right
  obtain ⟨left, right⟩ := not_isDue_again h a b few_left few_right silent silentBack
  refine ⟨left, right, ?_, ?_⟩
  · rw [right_mail]
    exact old_trip there.symm a (back_length ▸ few_right) (there_length ▸ few_left) dueBack
  · by_cases again : ((w.toRight b).toLeft a).left.sending.outbound.isDue
    · exact old_trip back b few (back_length ▸ few_right) again
    · obtain ⟨same, idle⟩ := Party.hearFrom_of_not_isDue (p := ((w.toRight b).toLeft a).left)
        (by simpa using again) ((w.toRight b).toLeft a).right b
      have old := old_trip h b (there_length ▸ few_left) (Nat.le_of_lt few_right) due
      intro m sent
      rw [toRight, idle, left_mail] at sent
      rw [toRight, same]
      exact old m sent

end

/-- Whatever was lost, repeated or reordered before: once the left party has flushed and its
envelope was taken, and the right party has flushed and its envelope was taken, all that the left
party had pushed and all that the right party had pushed was handed to the listeners of the other
one, in order and once for each registration, and the left party's history is empty.  If the left
party's next envelope is taken too and no application has spoken meanwhile, nobody has anything to
send any more; where the round trip did consist of two envelopes, old ones that are still under way
do not change that. -/
theorem round_trip_heals {η σ : Type} [DecidableEq η] {a b : Application η σ} {h h' : η}
    {n n' : Nat} {s t : σ} {w : TwoWay η σ}
    (run : Run a b (fun w =>
      (b.handlers w.right.app).count h = n ∧ (a.handlers w.left.app).count h' = n') (fresh s t) w)
    (few : w.left.sending.mail.length < halfRange)
    (fewBack : w.right.sending.mail.length < halfRange) :
    let there := w.toRight b
    let back := there.toLeft a
    let again := back.toRight b
    handedTo (some h) back.right.calls = w.left.sending.pushed.flatMap (List.replicate n) ∧
    back.left.sending.outbound.history = [] ∧
    handedTo (some h') back.left.calls = there.right.sending.pushed.flatMap (List.replicate n') ∧
    (again.left.spoken = w.left.spoken → again.right.spoken = there.right.spoken →
      again.left.sending.outbound.flush = (none, again.left.sending.outbound) ∧
      again.right.sending.outbound.flush = (none, again.right.sending.outbound) ∧
      (w.left.sending.outbound.isDue = true → there.right.sending.outbound.isDue = true →
        again.left.sending.mail.length ≤ halfRange → again.right.sending.mail.length ≤ halfRange →
        ∀ later, Run a b (fun _ => True) again later →
          later.left.spoken = again.left.spoken → later.right.spoken = again.right.spoken →
          later.left.sending.outbound.flush.1 = none ∧
            later.right.sending.outbound.flush.1 = none)) := by
  intro there back again
  have paired := run.paired (Nat.le_of_lt few) (Nat.le_of_lt fewBack)
  have grown := (w.left.sending.mail_length_flush).2
  have arrived := (paired_toLeft_toRight paired a b few fewBack).1
  have deliveredThere := Party.delivered_trip paired b few (Nat.le_of_lt fewBack)
  have deliveredBack : back.left.receiving.delivered = there.right.sending.pushed := by
    refine Party.delivered_trip arrived.symm a ?_ (Nat.le_trans grown few)
    simpa only [toRight, Party.mail_hearFrom] using fewBack
  have handedThere :=
    Party.handedTo_hearFrom (p := w.left) b run.holds.1 (run.handedRight fun _ holds => holds.1)
  have handedBack := Party.handedTo_hearFrom (p := there.right) (q := there.left) a run.holds.2
    (run.handedLeft fun _ holds => holds.2)
  refine ⟨?_, history_toLeft_toRight paired a b few fewBack, ?_,
    fun silent silentBack => ⟨?_, ?_, ?_⟩⟩
  · rw [← deliveredThere]
    exact handedThere
  · rw [← deliveredBack]
    exact handedBack
  · exact Outbound.flush_of_not_isDue (not_isDue_again paired a b few fewBack silent silentBack).1
  · exact Outbound.flush_of_not_isDue (not_isDue_again paired a b few fewBack silent silentBack).2
  · intro due dueBack fewAgain fewBackAgain later onward quiet quietBack
    have settled := settled_again paired a b fewAgain fewBackAgain due dueBack silent silentBack
    have still := (onward.settled settled).2.2 quiet quietBack
    rw [Outbound.flush_of_not_isDue still.left, Outbound.flush_of_not_isDue still.right]
    exact ⟨rfl, rfl⟩

/-- The first envelope of either party is lost and the right party has overtaken one of the left
party's. -/
theorem round_trip_heals_lossy :
    let a : Application Unit Unit := ⟨fun _ => [()], fun _ s => (s, []), by simp⟩
    let first : Command := .message .guaranteed 1 [1]
    let second : Command := .message .guaranteed 1 [2]
    let answer : Command := .message .guaranteed 2 []
    ∃ w : TwoWay Unit Unit, Run a a (fun w => (a.handlers w.right.app).count () = 1 ∧
        (a.handlers w.left.app).count () = 1) (fresh () ()) w ∧
      w.left.sending.outbound.history = [⟨0, [first]⟩, ⟨1, [second]⟩] ∧ w.left.calls = [] ∧
      handedTo (some ()) ((w.toRight a).toLeft a).right.calls = [first, second] ∧
      handedTo (some ()) ((w.toRight a).toLeft a).left.calls = [answer] ∧
      ((w.toRight a).toLeft a).left.sending.outbound.history = [] ∧
      (((w.toRight a).toLeft a).toRight a).right.sending.outbound.flush.1 = none := by
  intro a first second answer
  let later : Mail := ⟨⟨1, [⟨0, [first]⟩, ⟨1, [second]⟩], []⟩, 1, [0, 1]⟩
  have start : Run a a
      (fun w => (a.handlers w.right.app).count () = 1 ∧ (a.handlers w.left.app).count () = 1)
      (fresh () ()) (fresh () ()) := .start ⟨rfl, rfl⟩
  have lost :=
    (start.next (.left _ _ (.say _ first rfl)) ⟨rfl, rfl⟩).next (.left _ _ (.flush _)) ⟨rfl, rfl⟩
  have lostBack :=
    (lost.next (.right _ _ (.say _ answer rfl)) ⟨rfl, rfl⟩).next (.right _ _ (.flush _)) ⟨rfl, rfl⟩
  have sent := (lostBack.next (.left _ _ (.say _ second rfl)) ⟨rfl, rfl⟩).next
    (.left _ _ (.flush _)) ⟨rfl, rfl⟩
  have taken := sent.next (.right _ _ (.take _ later (by decide))) ⟨rfl, rfl⟩
  have repeated := taken.next (.right _ _ (.take _ later (by decide))) ⟨rfl, rfl⟩
  obtain ⟨handed, empty, handedBack, quiet⟩ := round_trip_heals repeated (by decide) (by decide)
  refine ⟨_, repeated, by decide, by decide, ?_, ?_, empty, ?_⟩
  · rw [handed]
    decide
  · rw [handedBack]
    decide
  · rw [(quiet (by decide) (by decide)).2.1]

end TwoWay
end DatagramSession
