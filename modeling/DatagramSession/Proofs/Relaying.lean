import DatagramSession.Proofs.Servers
/-!
# What is passed on

An envelope of one connection reaches the outbound states of the others through the relay only.
`Server.passedOn` lists the commands that it queues for each of them (`find?_route`): the new
guaranteed ones as they are, and the unreliable ones but for acknowledgements.  So the
acknowledgements that others are sent on a connection's behalf are those in its guaranteed batches,
where none belongs (`acks_route`, `forged_eq_nil_iff`).
-/
namespace DatagramSession

/-- The acknowledgements that wait to be sent. -/
def Outbound.acks (o : Outbound) : List OrderNumber :=
  (o.guaranteed ++ o.unreliable).filterMap Command.confirmed?

namespace PeerSlot

/-- Queues commands one after the other. -/
def enqueueEach (commands : List Command) (slot : PeerSlot) : PeerSlot :=
  commands.foldl (fun slot c => (slot.enqueue c).2) slot

/-- A peer that is there takes every acknowledgement that is queued. -/
theorem acks_enqueue (o : Outbound) (c : Command) :
    ∃ o', (enqueue c (some o)).2 = some o' ∧ o'.acks = o.acks ++ c.confirmed?.toList := by
  cases c with
  | ack n =>
    exact ⟨o.push (.ack n), rfl, by simp [Outbound.acks, Outbound.push, Command.confirmed?]⟩
  | message reliability kind payload =>
    unfold enqueue
    split
    · refine ⟨o.push (.message reliability kind payload), rfl, ?_⟩
      unfold Outbound.push
      split <;> simp [Outbound.acks, Command.confirmed?, List.filterMap_cons]
    · exact ⟨o, rfl, (List.append_nil _).symm⟩

theorem acks_enqueueEach (commands : List Command) (o : Outbound) :
    ∃ o', enqueueEach commands (some o) = some o' ∧
    o'.acks = o.acks ++ commands.filterMap Command.confirmed? := by
  induction commands generalizing o with
  | nil => exact ⟨o, rfl, (List.append_nil _).symm⟩
  | cons c rest ih =>
    obtain ⟨o₁, first, taken⟩ := acks_enqueue o c
    obtain ⟨o', later, all⟩ := ih o₁
    refine ⟨o', ?_, ?_⟩
    · rw [enqueueEach, List.foldl_cons, first]
      exact later
    · rw [all, taken, List.append_assoc]
      cases confirms : c.confirmed? <;> simp [confirms]

end PeerSlot

/-- The command that the relay passes on. -/
def Call.passed? : Call ServerHandler → Option Command
  | .guaranteed .relay c => some c
  | .unreliable .relay c => if c.confirmed?.isNone then some c else none
  | _ => none

/-- The commands that a connection with this watermark passes on, once for each registration of the
relay. -/
def Envelope.passedOn (e : Envelope) (watermark : Option OrderNumber) (relays : Nat) :
    List Command :=
  (e.freshCommands watermark ++ e.unreliable.filter (·.confirmed?.isNone)).flatMap
    (List.replicate relays)

theorem Envelope.passedOn_calls (e : Envelope) (watermark : Option OrderNumber)
    (handlers : List ServerHandler) :
    (e.calls watermark handlers).filterMap Call.passed? =
      e.passedOn watermark (handlers.count .relay) := by
  have guaranteed (h : ServerHandler) (c : Command) :
      (Call.guaranteed h c).passed? = if h = .relay ∧ true = true then some c else none := by
    cases h <;> simp [Call.passed?]
  have unreliable (h : ServerHandler) (c : Command) :
      (Call.unreliable h c).passed? = if h = .relay ∧
      c.confirmed?.isNone = true then some c else none := by
    cases h <;> simp [Call.passed?]
  have given : (if e.asksForAck then [Call.acknowledge (.ack e.order)] else []).filterMap
      Call.passed? = [] := by
    split <;> rfl
  rw [calls, List.filterMap_append, List.filterMap_append, filterMap_handAll guaranteed,
    filterMap_handAll unreliable, given, List.append_nil, passedOn, List.flatMap_append]
  simp

namespace Server

/-- The commands that an envelope of a connection, arriving now, makes the relay queue for all
others. -/
def passedOn (s : Server) (c : Connection) (e : Envelope) : List Command :=
  if e.order.isNewer c.inbound.watermark then
    e.passedOn c.inbound.watermark (s.handlers.count .relay) else []

/-- The acknowledgements among guaranteed commands, once for each registration of the relay. -/
def acksPassed (s : Server) (commands : List Command) : List OrderNumber :=
  (commands.filterMap Command.confirmed?).flatMap (List.replicate (s.handlers.count .relay))

/-- The acknowledgements that an envelope of a connection, arriving now, makes the relay queue for
all others. -/
def forged (s : Server) (c : Connection) (e : Envelope) : List OrderNumber :=
  if e.order.isNewer c.inbound.watermark then s.acksPassed (e.freshCommands c.inbound.watermark)
  else []

section
variable {s : Server} {c : Connection} {e : Envelope} {source k : ConnectionId}

/-- The relay queues a command for every peer but its source. -/
theorem find?_relay (other : k ≠ source) (s : Server) (c : Command) :
    (s.relay source c).lobby.peers.find? k = (PeerSlot.enqueue c (s.lobby.peers.find? k)).2 := by
  have unique : (s.lobby.peers.keys.filter (· ≠ source)).Nodup := s.lobby.peers.unique.filter _
  refine (PeerMap.find?_enqueueAll unique c s.lobby.peers k).trans ?_
  split
  case isTrue => rfl
  case isFalse absent =>
    have empty : s.lobby.peers.find? k = none := by
      simpa [other, Table.mem_keys_iff] using absent
    rw [empty]
    unfold PeerSlot.enqueue
    split <;> rfl

theorem find?_perform (other : k ≠ source) (call : Call ServerHandler) (s : Server) :
    ((receiver source).perform call s).lobby.peers.find? k =
      PeerSlot.enqueueEach call.passed?.toList (s.lobby.peers.find? k) := by
  have elsewhere {α : Type} (f : PeerSlot → α × PeerSlot) :
      (s.lobby.peers.atPeer source f).2.find? k = s.lobby.peers.find? k := by
    rw [PeerMap.find?_atPeer, if_neg (Ne.symm other)]
  match call with
  | .guaranteed .peers _ | .guaranteed (.application _) _ | .unreliable (.application _) _ => rfl
  | .acknowledge ack => exact elsewhere (PeerSlot.enqueue ack)
  | .unreliable .peers c => exact elsewhere fun slot => ((), slot.heed c)
  | .guaranteed .relay c => exact find?_relay other s c
  | .unreliable .relay c =>
    simp only [receiver, Call.passed?]
    split
    · exact find?_relay other s c
    · rfl

theorem find?_performAll (other : k ≠ source) (calls : List (Call ServerHandler)) (s : Server) :
    ((receiver source).performAll calls s).lobby.peers.find? k =
      PeerSlot.enqueueEach (calls.filterMap Call.passed?) (s.lobby.peers.find? k) := by
  induction calls generalizing s with
  | nil => rfl
  | cons call rest ih =>
    have later := ih ((receiver source).perform call s)
    rw [find?_perform other] at later
    refine later.trans ?_
    cases passed : call.passed? <;> simp [PeerSlot.enqueueEach, passed]

/-- What an envelope does to the outbound states of those that it is not from. -/
theorem find?_route {endpoint : Address} (found : s.lobby.registry.connectionAt? endpoint = some c)
    {bytes : List UInt8} {sequence : UInt32}
    (carried : Wire.decode bytes = .ok (.numbered sequence (.envelope e))) (other : k ≠ c.id) :
    (s.route endpoint bytes).2.lobby.peers.find? k = PeerSlot.enqueueEach (s.passedOn c e)
      (s.lobby.peers.find? k) := by
  have touched : (c.touch s.now).inbound = c.inbound ∧ (c.touch s.now).id = c.id := ⟨rfl, rfl⟩
  unfold route passedOn
  simp only [carried, routePacket, Packet.numbered, found, routeConnected, routeEnvelope,
    Receiver.receive_eq, touched]
  by_cases newer : e.order.isNewer c.inbound.watermark
  · simp only [newer, if_true]
    rw [← e.passedOn_calls]
    exact find?_performAll other _ { s with lobby := s.lobby.modify c.id (·.touch s.now) }
  · simp only [newer]
    rfl

theorem acks_passedOn (s : Server) (c : Connection) (e : Envelope) :
    (s.passedOn c e).filterMap Command.confirmed? = s.forged c e := by
  have replicated (n : Nat) (commands : List Command) :
      (commands.flatMap (List.replicate n)).filterMap Command.confirmed? =
        (commands.filterMap Command.confirmed?).flatMap (List.replicate n) := by
    induction commands with
    | nil => rfl
    | cons c rest ih =>
      rw [List.flatMap_cons, List.filterMap_append, ih]
      cases confirms : c.confirmed? <;> simp [confirms]
  have kept : (e.unreliable.filter (·.confirmed?.isNone)).filterMap Command.confirmed? = [] := by
    refine List.filterMap_eq_nil_iff.2 fun c mem => ?_
    simpa using (List.mem_filter.1 mem).2
  unfold passedOn forged
  split
  · rw [Envelope.passedOn, replicated, List.filterMap_append, kept, List.append_nil, acksPassed]
  · rfl

/-- The acknowledgements that an envelope adds to those that wait for somebody else. -/
theorem acks_route {endpoint : Address} (found : s.lobby.registry.connectionAt? endpoint = some c)
    {bytes : List UInt8} {sequence : UInt32}
    (carried : Wire.decode bytes = .ok (.numbered sequence (.envelope e))) (other : k ≠ c.id)
    {o : Outbound} (waits : s.lobby.peers.find? k = some o) :
    ∃ o', (s.route endpoint bytes).2.lobby.peers.find? k = some o' ∧
    o'.acks = o.acks ++ s.forged c e := by
  rw [find?_route found carried other, waits, ← acks_passedOn]
  exact PeerSlot.acks_enqueueEach _ o

theorem acksPassed_eq_nil_iff {commands : List Command} :
    s.acksPassed commands = [] ↔ (.relay ∈ s.handlers → ∀ a ∈ commands, a.confirmed? = none) := by
  simp only [acksPassed, List.flatMap_eq_nil_iff, List.replicate_eq_nil_iff, List.count_eq_zero]
  constructor
  · intro nothing relay a mem
    cases confirms : a.confirmed? with
    | none => rfl
    | some n => exact absurd relay (nothing n (List.mem_filterMap.2 ⟨a, mem, confirms⟩))
  · intro plain n mem relay
    obtain ⟨a, mem, confirms⟩ := List.mem_filterMap.1 mem
    rw [plain relay a mem] at confirms
    cases confirms

/-- Nothing is forged just when the envelope is old, or there is no relay, or no acknowledgement is
among the new guaranteed commands. -/
theorem forged_eq_nil_iff :
    s.forged c e = [] ↔ (e.order.isNewer c.inbound.watermark = true → .relay ∈ s.handlers →
    ∀ a ∈ e.freshCommands c.inbound.watermark, a.confirmed? = none) := by
  unfold forged
  split
  case isTrue newer => simp only [newer, true_implies, acksPassed_eq_nil_iff]
  case isFalse old => exact ⟨fun _ newer => absurd newer old, fun _ => rfl⟩

/-- An envelope that is taken without an acknowledgement to pass on forges none. -/
theorem not_forges_of_takes {endpoint : Address}
    (nothing : ∀ taken ∈ s.takes endpoint e, s.acksPassed taken.2 = []) :
    ¬ s.Forges endpoint e := by
  rintro ⟨c, found, newer, relay, a, fresh, confirms⟩
  have taken : s.takes endpoint e = some (c.id, e.freshCommands c.inbound.watermark) := by
    simp [takes, found, newer]
  have plain := acksPassed_eq_nil_iff.1 (nothing _ taken) relay a fresh
  simp [plain] at confirms

end

end Server
end DatagramSession
