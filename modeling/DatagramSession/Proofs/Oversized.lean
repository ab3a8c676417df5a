import DatagramSession.Proofs.Phases
import DatagramSession.Proofs.Servers
/-!
# Envelopes that are too large

A party whose envelope does not fit into a datagram gives up the session.  That is in order where
the unconfirmed history alone is too large, for then no later envelope could be sent either
(`stuck_iff`).  But the unreliable commands of the tick, acknowledgements among them, count as well
(`closed_iff_oversized`), although the next envelope would be without them: two of them are enough
to end a session that has no history at all (`closed_for_unreliable_commands`).
-/
namespace DatagramSession

open Wire (envelopeSize)

namespace Outbound

/-- What may become of an outbound state while nothing is confirmed. -/
inductive Unanswered (o : Outbound) : Outbound → Prop where
  | rest : Unanswered o o
  | push {o' : Outbound} (c : Command) : Unanswered o o' → Unanswered o (o'.push c)
  | keepAlive {o' : Outbound} : Unanswered o o' → Unanswered o o'.keepAlive
  | flush {o' : Outbound} : Unanswered o o' → Unanswered o o'.flush.2

theorem history_prefix_extendedHistory (o : Outbound) : o.history <+: o.extendedHistory := by
  unfold extendedHistory
  split
  · exact List.prefix_rfl
  · exact List.prefix_append _ _

theorem Unanswered.history_prefix {o o' : Outbound} (h : Unanswered o o') :
    o.history <+: o'.history := by
  induction h with
  | rest => exact List.prefix_rfl
  | @push o' c _ ih =>
    have kept : (o'.push c).history = o'.history := by
      unfold Outbound.push
      split <;> rfl
    rwa [kept]
  | keepAlive _ ih => exact ih
  | @flush o' _ ih =>
    unfold Outbound.flush
    split
    · exact ih.trans o'.history_prefix_extendedHistory
    · exact ih

/-- The unconfirmed batches and nothing else. -/
def backlog (o : Outbound) : Envelope where
  order := o.nextOrder
  guaranteed := o.history

/-- Every later envelope has the unconfirmed batches in it. -/
theorem Unanswered.backlog_le {o o' : Outbound} (later : Unanswered o o') :
    envelopeSize o.backlog ≤ envelopeSize o'.envelope := by
  have history : o.history <+: o'.extendedHistory :=
    later.history_prefix.trans o'.history_prefix_extendedHistory
  exact Wire.envelopeSize_mono history.sublist.sublistForall₂ (List.nil_sublist _)

theorem flush_keepAlive (o : Outbound) : o.keepAlive.flush = (some o.envelope, o.flushed) :=
  rfl

/-- The next envelope without the commands that are in no other one. -/
def replay (o : Outbound) : Envelope :=
  { o.envelope with unreliable := [] }

/-- Once the next envelope is taken, none that comes later could be sent without a confirmation. -/
def Stuck (o : Outbound) : Prop :=
  ∀ o', Unanswered o.flushed o' → maxPacketSize < envelopeSize o'.envelope

theorem stuck_iff (o : Outbound) : o.Stuck ↔ maxPacketSize < envelopeSize o.replay := by
  constructor
  · intro stuck
    exact stuck o.flushed .rest
  · intro large o' later
    have same : envelopeSize o.flushed.backlog = envelopeSize o.replay := rfl
    exact Nat.lt_of_lt_of_le (same ▸ large) later.backlog_le

theorem Stuck.too_large {o : Outbound} (stuck : o.Stuck) :
    maxPacketSize < envelopeSize o.envelope :=
  Nat.lt_of_lt_of_le (o.stuck_iff.1 stuck)
    (Wire.envelopeSize_mono (List.Sublist.refl _).sublistForall₂ (List.nil_sublist _))

/-- The history alone would go out, and only the commands that are in no other envelope are too
much. -/
structure Overloaded (o : Outbound) : Prop where
  carries : o.unreliable ≠ []
  fits : envelopeSize o.replay ≤ maxPacketSize
  large : maxPacketSize < envelopeSize o.envelope

theorem too_large_iff (o : Outbound) :
    maxPacketSize < envelopeSize o.envelope ↔ o.Stuck ∨ o.Overloaded := by
  constructor
  · intro large
    by_cases stuck : o.Stuck
    · exact .inl stuck
    · rw [stuck_iff, Nat.not_lt] at stuck
      refine .inr ⟨fun none => ?_, stuck, large⟩
      have same : o.replay = o.envelope := by simp [replay, envelope, none]
      rw [same] at stuck
      omega
  · rintro (stuck | overloaded)
    · exact stuck.too_large
    · exact overloaded.large

end Outbound

/-! ## Servers -/

namespace Server

variable {s : Server} {k : ConnectionId}

theorem mem_ids_iff : k ∈ s.ids ↔ (s.connection? k).isSome = true :=
  Table.mem_keys_iff

def isLive (s : Server) (k : ConnectionId) : Bool :=
  (s.connection? k).isSome

theorem isLive_modify (s : Server) (id : ConnectionId) (f : Connection → Connection) :
    { s with lobby := s.lobby.modify id f }.isLive k = s.isLive k := by
  simp only [isLive, connection?, Registry.connection?, Lobby.modify, Registry.modify,
    Table.find?_modify]
  split
  · exact Option.isSome_map
  · rfl

theorem isLive_sendTo (s : Server) (c : Connection) (body : Body) :
    (s.sendTo c body).2.isLive k = s.isLive k :=
  s.isLive_modify c.id _

theorem isLive_sayGoodbye (s : Server) (id : ConnectionId) :
    (s.sayGoodbye id).isLive k = s.isLive k := by
  unfold sayGoodbye
  split
  · exact s.isLive_sendTo _ _
  · rfl

theorem isLive_close (s : Server) (id : ConnectionId) (reason : DisconnectReason) :
    (s.close id reason).2.isLive k = (decide (id ≠ k) && s.isLive k) := by
  simp only [isLive, connection?, close, Lobby.close_registry, Registry.connection?_remove]
  by_cases same : id = k <;> simp [same]

/-- An envelope that is too large costs its peer the connection, any other one costs nobody
anything. -/
theorem isLive_sendEnvelope (acc : Nat × Server) (mail : ConnectionId × Envelope) :
    (sendEnvelope acc mail).2.isLive k =
      (acc.2.isLive k && decide (mail.1 = k → envelopeSize mail.2 ≤ maxPacketSize)) := by
  obtain ⟨count, s⟩ := acc
  obtain ⟨id, e⟩ := mail
  unfold sendEnvelope
  dsimp only
  cases live : s.connection? id with
  | none =>
    have gone : s.isLive id = false := by simp [isLive, live]
    by_cases same : id = k
    · simp [← same, gone]
    · simp [same]
  | some c =>
    dsimp only
    by_cases fits : envelopeSize e ≤ maxPacketSize
    · have sent (size : Nat) : (s.sendTo c (.envelope e)).1 ≠ .error (.tooLarge size) :=
        s.transport.send_of_fits c.address (p := .numbered c.sequence (.envelope e)) fits size
      have kept := s.isLive_sendTo (k := k) c (.envelope e)
      generalize s.sendTo c (.envelope e) = outcome at sent kept
      obtain ⟨result, s'⟩ := outcome
      simp only [fits, implies_true, decide_true, Bool.and_true]
      split
      case h_1 out =>
        cases out
        rw [isLive_modify]
        exact kept
      case h_2 size _ out =>
        cases out
        exact absurd rfl (sent size)
      case h_3 out =>
        cases out
        exact kept
    · have sent : (s.sendTo c (.envelope e)).1 = .error (.tooLarge (envelopeSize e)) := by
        have refused := s.transport.send_of_large c.address
          (p := .numbered c.sequence (.envelope e)) (Nat.lt_of_not_le fits)
        exact congrArg Prod.fst refused
      have kept := s.isLive_sendTo (k := k) c (.envelope e)
      generalize s.sendTo c (.envelope e) = outcome at sent kept
      obtain ⟨result, s'⟩ := outcome
      subst sent
      simp only [isLive_close, isLive_sayGoodbye, kept, fits, imp_false]
      exact Bool.and_comm _ _

theorem isLive_foldl_sendEnvelope (mails : List (ConnectionId × Envelope)) (acc : Nat × Server) :
    (mails.foldl sendEnvelope acc).2.isLive k = (acc.2.isLive k &&
      ((mails.filter (·.1 = k)).map Prod.snd).all fun e =>
        decide (envelopeSize e ≤ maxPacketSize)) := by
  induction mails generalizing acc with
  | nil => simp
  | cons mail rest ih =>
    rw [List.foldl_cons, ih, isLive_sendEnvelope]
    by_cases same : mail.1 = k <;> simp [same, Bool.and_assoc]

theorem isLive_flushIn (s : Server) (connections peers : List ConnectionId) :
    (s.flushIn connections peers).2.isLive k =
      (s.isLive k && (s.buildsFor connections peers k).all fun e =>
        decide (envelopeSize e ≤ maxPacketSize)) := by
  obtain ⟨map, asked⟩ := s.foldl_keepAliveOne_eq connections
  unfold flushIn buildsFor builds
  dsimp only
  rw [isLive_foldl_sendEnvelope, asked]
  rfl

/-- The connection was sent no envelope for so long that it is to get one in any case. -/
def wakes (s : Server) (k : ConnectionId) : Bool :=
  (s.connection? k).any fun c => c.isIdle s.now s.keepAliveInterval

/-- The outbound state from which the next flush sends an envelope to a peer. -/
def due (s : Server) (k : ConnectionId) : Option Outbound :=
  (s.lobby.peers.find? k).filter fun o => o.isDue || s.wakes k

theorem find?_keepAliveOne (s : Server) (id : ConnectionId) :
    (s.keepAliveOne id).lobby.peers.find? k =
      if id = k ∧ s.wakes k = true then (s.lobby.peers.find? k).map Outbound.keepAlive
      else s.lobby.peers.find? k := by
  unfold keepAliveOne wakes
  by_cases same : id = k
  · subst same
    cases s.connection? id with
    | none => simp
    | some c =>
      by_cases idle : c.isIdle s.now s.keepAliveInterval <;>
        simp [idle, PeerMap.keepAlive, PeerMap.find?_atPeer, PeerSlot.keepAlive]
  · cases s.connection? id with
    | none => simp [same]
    | some c =>
      by_cases idle : c.isIdle s.now s.keepAliveInterval <;>
        simp [idle, same, PeerMap.keepAlive, PeerMap.find?_atPeer]

theorem find?_foldl_keepAliveOne (s : Server) (ids : List ConnectionId) :
    (ids.foldl keepAliveOne s).lobby.peers.find? k =
      if k ∈ ids ∧ s.wakes k = true then (s.lobby.peers.find? k).map Outbound.keepAlive
      else s.lobby.peers.find? k := by
  induction ids generalizing s with
  | nil => simp
  | cons id rest ih =>
    obtain ⟨peers, asked⟩ := s.keepAliveOne_eq id
    have wakes : (s.keepAliveOne id).wakes k = s.wakes k := by rw [asked]; rfl
    have here := s.find?_keepAliveOne (k := k) id
    rw [List.foldl_cons, ih, wakes, here]
    by_cases awake : s.wakes k = true
    · by_cases same : id = k
      · subst same
        cases s.lobby.peers.find? id <;> simp [awake, Outbound.keepAlive]
      · simp [awake, same, Ne.symm same, List.mem_cons]
    · simp [awake]

/-- Once every connection has been visited, a peer gives the envelope that is due, if one is. -/
theorem flush_find?_foldl_keepAliveOne (s : Server) {connections : List ConnectionId}
    (visits : connections.Perm s.ids) (k : ConnectionId) :
    PeerSlot.flush ((connections.foldl keepAliveOne s).lobby.peers.find? k) =
      ((s.due k).map Outbound.envelope,
        (s.due k).elim (s.lobby.peers.find? k) (some ·.flushed)) := by
  have awake (wakes : s.wakes k = true) : k ∈ connections :=
    visits.mem_iff.2 (mem_ids_iff.2 (Option.isSome_of_any wakes))
  rw [find?_foldl_keepAliveOne]
  unfold due
  cases slot : s.lobby.peers.find? k with
  | none => simp [PeerSlot.flush]
  | some o =>
    by_cases wakes : s.wakes k = true
    · simp [wakes, awake wakes, PeerSlot.flush, Option.filter, o.flush_keepAlive]
    · by_cases asked : o.isDue = true <;>
        simp [wakes, PeerSlot.flush, Option.filter, Outbound.flush, asked]

theorem due_of_absent {s : Server} {k : ConnectionId} (absent : s.lobby.peers.find? k = none) :
    s.due k = none := by
  simp [due, absent]

/-- A flush that visits every connection and every peer once builds what is due. -/
theorem buildsFor_eq (s : Server) {connections peers : List ConnectionId}
    (visits : connections.Perm s.ids) (sends : peers.Perm s.lobby.peers.keys) (k : ConnectionId) :
    s.buildsFor connections peers k = ((s.due k).map Outbound.envelope).toList := by
  have once : peers.Nodup := sends.nodup_iff.2 s.lobby.peers.unique
  unfold buildsFor builds
  rw [PeerMap.flushEach_filter once, s.flush_find?_foldl_keepAliveOne visits]
  split
  case isTrue => rfl
  case isFalse unvisited =>
    have absent : s.lobby.peers.find? k = none := by
      simpa [sends.mem_iff, Table.mem_keys_iff] using unvisited
    rw [due_of_absent absent]
    rfl

/-- A flush closes exactly the connections whose envelope is too large. -/
theorem isLive_flushIn_iff (s : Server) {connections peers : List ConnectionId}
    (visits : connections.Perm s.ids) (sends : peers.Perm s.lobby.peers.keys) (k : ConnectionId) :
    (s.flushIn connections peers).2.isLive k = true ↔
      s.isLive k = true ∧ ∀ o ∈ s.due k, ¬ (o.Stuck ∨ o.Overloaded) := by
  simp only [isLive_flushIn, s.buildsFor_eq visits sends, ← Outbound.too_large_iff, Nat.not_lt]
  cases s.due k <;> simp

/-! ### Reports -/

/-- Nothing but the end of oversized sessions has been reported. -/
def OnlyOversized (s s' : Server) : Prop :=
  ∀ e ∈ s'.lobby.events, e ∈ s.lobby.events ∨ ∃ id, e = .disconnected id .oversized

theorem OnlyOversized.trans {s s' s'' : Server} (first : OnlyOversized s s')
    (second : OnlyOversized s' s'') :
    OnlyOversized s s'' :=
  fun e mem => (second e mem).elim (first e) .inr

theorem onlyOversized_of_eq {s s' : Server} (events : s'.lobby.events = s.lobby.events) :
    OnlyOversized s s' :=
  fun _ mem => .inl (events ▸ mem)

theorem onlyOversized_sendEnvelope (acc : Nat × Server) (mail : ConnectionId × Envelope) :
    OnlyOversized acc.2 (sendEnvelope acc mail).2 := by
  obtain ⟨count, s⟩ := acc
  unfold sendEnvelope
  dsimp only
  split
  case h_1 => exact onlyOversized_of_eq rfl
  case h_2 c _ =>
    have sent : (s.sendTo c (.envelope mail.2)).2.lobby.events = s.lobby.events := rfl
    generalize s.sendTo c (.envelope mail.2) = outcome at sent
    obtain ⟨result, s'⟩ := outcome
    split
    case h_1 out =>
      cases out
      exact onlyOversized_of_eq sent
    case h_2 out =>
      cases out
      have bye : (s'.sayGoodbye mail.1).lobby.events = s'.lobby.events := by
        unfold sayGoodbye
        split <;> rfl
      exact (onlyOversized_of_eq (bye.trans sent)).trans (Lobby.events_close _ _ .oversized)
    case h_3 out =>
      cases out
      exact onlyOversized_of_eq sent

theorem onlyOversized_flushIn (s : Server) (connections peers : List ConnectionId) :
    OnlyOversized s (s.flushIn connections peers).2 := by
  obtain ⟨map, asked⟩ := s.foldl_keepAliveOne_eq connections
  unfold flushIn
  rw [asked]
  refine List.foldlRecOn _ _ (motive := fun acc : Nat × Server => OnlyOversized s acc.2)
    (onlyOversized_of_eq rfl) ?_
  intro acc kept mail _
  exact kept.trans (onlyOversized_sendEnvelope acc mail)

end Server

/-! ## Clients -/

namespace Client

/-- The outbound state from which the next update sends an envelope. -/
def due (c : Client) : Option Outbound :=
  if c.state.isRegistered && !c.isLost then c.outbound.filter fun o => o.isDue || c.isIdle else none

/-- The client ends its session for the size of what it has to send. -/
def GivesUp (c c' : Client) : Prop :=
  c.state ≠ .disconnected ∧ c'.state = .disconnected ∧
    c'.closeReason = some "Outgoing history exceeds the packet size limit"

theorem builds_eq (c : Client) : c.builds = c.due.map Outbound.envelope := by
  unfold builds due
  split
  · cases slot : c.outbound with
    | none => by_cases idle : c.isIdle = true <;> simp [idle, PeerSlot.keepAlive, PeerSlot.flush]
    | some o =>
      by_cases idle : c.isIdle = true
      · simp [idle, PeerSlot.keepAlive, PeerSlot.flush, o.flush_keepAlive, Option.filter]
      · by_cases asked : o.isDue = true
        · simp [idle, PeerSlot.flush, Outbound.flush_of_isDue asked, asked, Option.filter]
        · simp [idle, PeerSlot.flush, Outbound.flush_of_not_isDue (by simpa using asked), asked,
            Option.filter]
  · rfl

theorem isOverfull_iff (c : Client) :
    c.isOverfull = true ↔ ∃ o ∈ c.due, o.Stuck ∨ o.Overloaded := by
  simp only [isOverfull, builds_eq, ← Outbound.too_large_iff]
  cases c.due <;> simp

/-- An update gives up exactly the sessions whose envelope is too large. -/
theorem update_givesUp_iff (c : Client) :
    c.GivesUp c.update.2 ↔ ∃ o ∈ c.due, o.Stuck ∨ o.Overloaded := by
  have state : c.update.2.state = _ := congrArg SessionCells.state c.cells_update
  have reason : c.update.2.closeReason = _ := congrArg SessionCells.closeReason c.cells_update
  rw [← isOverfull_iff]
  by_cases off : c.state = .disconnected
  · have small : c.isOverfull = false := isOverfull_of_not_isRegistered (by rw [off]; rfl)
    simp [GivesUp, off, small]
  · simp only [cells, SessionCells.ended, off, if_false] at state reason
    cases lost : c.isLost with
    | true =>
      have small : c.isOverfull = false := by simp [isOverfull, builds, lost]
      simp [GivesUp, reason, lost, small]
    | false => cases large : c.isOverfull <;> simp [GivesUp, state, reason, lost, large, off]

end Client

/-- A flush closes a connection, and an update a session, exactly if an envelope is due that is too
large: either none could ever be sent again without a confirmation, or the unreliable commands of
this tick are too much, and the next envelope would have been without them. -/
theorem closed_iff_oversized (s : Server) {connections peers : List ConnectionId}
    (visits : connections.Perm s.ids) (sends : peers.Perm s.lobby.peers.keys) (c : Client) :
    s.OnlyOversized (s.flushIn connections peers).2 ∧
    (∀ k, (s.connection? k).isSome = true →
      ((s.flushIn connections peers).2.connection? k = none ↔
        ∃ o ∈ s.due k, o.Stuck ∨ o.Overloaded)) ∧
    (c.GivesUp c.update.2 ↔ ∃ o ∈ c.due, o.Stuck ∨ o.Overloaded) ∧
    ∀ o : Outbound, (o.Stuck ↔ maxPacketSize < envelopeSize o.replay) ∧
    (o.unreliable = [] → ¬ o.Overloaded) := by
  refine ⟨s.onlyOversized_flushIn connections peers, fun k live => ?_, c.update_givesUp_iff,
    fun o => ⟨o.stuck_iff, fun none overloaded => overloaded.carries none⟩⟩
  have kept := s.isLive_flushIn_iff visits sends k
  simp only [Server.isLive, live, true_and] at kept
  rw [← Option.not_isSome_iff_eq_none, kept, Classical.not_forall]
  simp only [Classical.not_imp, Classical.not_not]

/-! ## Two commands of 40000 bytes -/

/-- Two of these are too much for one datagram, wherever they travel. -/
def bulk (r : Reliability) : Command :=
  .message r 1 (List.replicate 40000 1)

theorem length_payload_bulk (r : Reliability) : (bulk r).payload.length = 40000 :=
  List.length_replicate

theorem maxPacketSize_lt_payloadsSize {c : Command} (long : c.payload.length = 40000) :
    maxPacketSize < Wire.payloadsSize [c, c] := by
  simp [Wire.payloadsSize, long, maxPacketSize]

namespace Server

theorem find?_enqueue {s : Server} {k : ConnectionId} {o : Outbound}
    (slot : s.lobby.peers.find? k = some o) {c : Command}
    (short : c.payload.length ≤ maxPayloadSize) :
    (s.enqueue k c).2.lobby.peers.find? k = some (o.push c) := by
  simp [enqueue, PeerMap.enqueue, PeerMap.find?_atPeer, slot, PeerSlot.enqueue, short]

/-- A server that one client has registered with. -/
def joined : Server :=
  ((start {}).route ⟨.v4 167772162, 50000⟩
    (Wire.layOut (.numbered 0 (.register ⟨7, 0, defaultGame, 1⟩)))).2

/-- The same with a command that is queued for the client twice. -/
def joinedTwice (c : Command) : Server :=
  ((joined.enqueue 1 c).2.enqueue 1 c).2

theorem joinedTwice_live (c : Command) : (joinedTwice c).isLive 1 = true := by
  have live : joined.isLive 1 = true := by decide +kernel
  exact live

theorem joinedTwice_due {c : Command} (long : c.payload.length = 40000) :
    (joinedTwice c).due 1 = some (if c.isGuaranteed then { guaranteed := [c, c], asked := true }
      else { unreliable := [c, c], asked := true }) := by
  have slot : joined.lobby.peers.find? 1 = some {} := by decide +kernel
  have short : c.payload.length ≤ maxPayloadSize := by rw [long]; decide
  have queued : (joinedTwice c).lobby.peers.find? 1 = some ((({} : Outbound).push c).push c) :=
    find?_enqueue (find?_enqueue slot short) short
  by_cases guaranteed : c.isGuaranteed = true <;>
    simp [due, queued, Option.filter, Outbound.push, Outbound.isDue, guaranteed]

end Server

/-- With two guaranteed commands it is the history that has become too large. -/
theorem closed_iff_oversized_history :
    let s := Server.joinedTwice (bulk .guaranteed)
    (s.connection? 1).isSome = true ∧ s.flush.2.connection? 1 = none ∧ ∃ o ∈ s.due 1, o.Stuck := by
  intro s
  have idle : Client := { config := {}, server := ⟨.v4 167772161, 7000⟩ }
  obtain ⟨_, connections, _, stuck⟩ :=
    closed_iff_oversized s (.refl s.ids) (.refl s.lobby.peers.keys) idle
  have live : (s.connection? 1).isSome = true := Server.joinedTwice_live _
  let o : Outbound := { guaranteed := [bulk .guaranteed, bulk .guaranteed], asked := true }
  have due : s.due 1 = some o := Server.joinedTwice_due (length_payload_bulk .guaranteed)
  have large : maxPacketSize < envelopeSize o.replay :=
    Nat.lt_of_lt_of_le (maxPacketSize_lt_payloadsSize (length_payload_bulk .guaranteed))
      ((Wire.payloadsSize_le_envelopeSize o.replay).2 ⟨0, o.guaranteed⟩ List.mem_cons_self)
  have never : o.Stuck := (stuck o).1.2 large
  exact ⟨live, (connections 1 live).2 ⟨o, due, .inl never⟩, o, due, never⟩

/-- With two unreliable commands there is no history at all, and the next envelope would have been
empty; the connection is closed all the same. -/
theorem closed_for_unreliable_commands :
    let s := Server.joinedTwice (bulk .unreliable)
    (s.connection? 1).isSome = true ∧ s.flush.2.connection? 1 = none ∧ s.OnlyOversized s.flush.2 ∧
      ∃ o ∈ s.due 1, o.history = [] ∧ o.guaranteed = [] ∧ ¬ o.Stuck := by
  intro s
  have live : s.isLive 1 = true := Server.joinedTwice_live _
  let o : Outbound := { unreliable := [bulk .unreliable, bulk .unreliable], asked := true }
  have due : s.due 1 = some o := Server.joinedTwice_due (length_payload_bulk .unreliable)
  have large : maxPacketSize < envelopeSize o.envelope :=
    Nat.lt_of_lt_of_le (maxPacketSize_lt_payloadsSize (length_payload_bulk .unreliable))
      (Wire.payloadsSize_le_envelopeSize o.envelope).1
  have fits : ¬ o.Stuck := by
    rw [Outbound.stuck_iff]
    decide
  have closed : ¬ s.flush.2.isLive 1 = true := by
    rw [Server.flush, s.isLive_flushIn_iff (.refl _) (.refl _)]
    exact fun ⟨_, small⟩ => small o due (o.too_large_iff.1 large)
  exact ⟨live, Option.not_isSome_iff_eq_none.1 closed, s.onlyOversized_flushIn _ _, o, due, rfl,
    rfl, fits⟩

end DatagramSession
