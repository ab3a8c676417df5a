import DatagramSession.Proofs.Ledgers
import DatagramSession.Proofs.Reconnects
/-!
# The relay

An envelope that a connection takes makes the relay queue its new guaranteed commands for every
other peer, in order, and nothing guaranteed for the peer itself (`Server.queued_route`).  So what a
peer was queued on behalf of others is what the relay was handed since it joined (`Hub.Relayed`),
the same for all but for their own commands; and what two clients were handed of it are prefixes of
one sequence.
-/
namespace DatagramSession

namespace PeerSlot

theorem guaranteed_enqueueEach (commands : List Command) (o : Outbound) : ∃ o',
    enqueueEach commands (some o) = some o' ∧
    o'.guaranteed = o.guaranteed ++ commands.filter (·.Batchable) := by
  induction commands generalizing o with
  | nil => exact ⟨o, rfl, (List.append_nil _).symm⟩
  | cons c rest ih =>
    have first : ∃ o₁, (enqueue c (some o)).2 = some o₁ ∧
        o₁.guaranteed = o.guaranteed ++ [c].filter (·.Batchable) := by
      unfold enqueue
      by_cases fits : c.payload.length ≤ maxPayloadSize
      · rw [if_pos fits]
        by_cases own : c.isGuaranteed <;>
          exact ⟨o.push c, rfl, by simp [Outbound.push, Command.Batchable, own, fits]⟩
      · rw [if_neg fits]
        exact ⟨o, rfl, by simp [Command.Batchable, fits]⟩
    obtain ⟨o₁, queued, here⟩ := first
    obtain ⟨o', later, all⟩ := ih o₁
    refine ⟨o', ?_, ?_⟩
    · rw [enqueueEach, List.foldl_cons, queued]
      exact later
    · rw [all, here, List.append_assoc, ← List.filter_append, List.singleton_append]

theorem queued_enqueueEach {slot : PeerSlot} (present : slot.isSome = true)
    (commands : List Command) :
    queued slot (enqueueEach commands slot) = commands.filter (·.Batchable) := by
  obtain ⟨o, rfl⟩ := Option.isSome_iff_exists.1 present
  obtain ⟨o', later, all⟩ := guaranteed_enqueueEach commands o
  rw [later, queued, all]
  exact List.drop_left

theorem queued_of_guaranteed {slot slot' : PeerSlot}
    (same : slot'.map Outbound.guaranteed = slot.map Outbound.guaranteed) :
    queued slot slot' = [] := by
  cases slot' with
  | none => rfl
  | some o' =>
    obtain ⟨o, rfl, equal⟩ := Option.map_eq_some_iff.1 same.symm
    rw [queued, ← equal]
    exact List.drop_length

end PeerSlot

/-- What the relay passes on of a proper envelope is guaranteed as far as it was. -/
theorem Envelope.Proper.queues {e : Envelope} (proper : e.Proper) (watermark : Option OrderNumber) :
    (e.passedOn watermark 1).filter (·.Batchable) = e.freshCommands watermark := by
  have once (commands : List Command) : commands.flatMap (List.replicate 1) = commands :=
    List.flatMap_singleton' _
  rw [passedOn, once, List.filter_append, List.filter_eq_self.2, List.filter_eq_nil_iff.2,
    List.append_nil]
  · intro c mem batchable
    have other := proper.unreliable c (List.mem_of_mem_filter mem)
    exact absurd (of_decide_eq_true batchable).1 (by simp [other])
  · intro c mem
    obtain ⟨b, fresh, carried⟩ := List.mem_flatMap.1 mem
    exact decide_eq_true (proper.batches b (List.mem_of_mem_filter fresh) c carried)

namespace Server

section
variable {s : Server} {e : Envelope} {k id : ConnectionId}

/-- The relay queues nothing for the source. -/
theorem find?_relay_self (s : Server) (id : ConnectionId) (c : Command) :
    (s.relay id c).lobby.peers.find? id = s.lobby.peers.find? id := by
  have unique : (s.lobby.peers.keys.filter (· ≠ id)).Nodup := s.lobby.peers.unique.filter _
  exact (PeerMap.find?_enqueueAll unique c s.lobby.peers id).trans (if_neg (by simp))

/-- A peer's own envelope leaves its guaranteed commands as they wait. -/
theorem guaranteed_perform {watermark : Option OrderNumber} {call : Call ServerHandler}
    (belongs : call.Belongs e watermark) (id : ConnectionId) (s : Server) :
    (((receiver id).perform call s).lobby.peers.find? id).map Outbound.guaranteed =
      (s.lobby.peers.find? id).map Outbound.guaranteed := by
  have here {α : Type} (f : PeerSlot → α × PeerSlot)
      (kept : ∀ slot, (f slot).2.map Outbound.guaranteed = slot.map Outbound.guaranteed) :
      ((s.lobby.peers.atPeer id f).2.find? id).map Outbound.guaranteed
        = (s.lobby.peers.find? id).map Outbound.guaranteed := by
    rw [PeerMap.find?_atPeer, if_pos rfl]
    exact kept _
  match call, belongs with
  | .guaranteed .peers _, _ | .guaranteed (.application _) _, _
  | .unreliable (.application _) _, _ => rfl
  | .acknowledge _, ⟨_, acknowledges⟩ =>
    subst acknowledges
    apply here
    intro slot
    cases slot <;> rfl
  | .unreliable .peers c, _ =>
    apply here fun slot => ((), slot.heed c)
    intro slot
    unfold PeerSlot.heed
    split
    · cases slot <;> rfl
    · rfl
  | .guaranteed .relay c, _ =>
    rw [show (receiver id).perform (.guaranteed .relay c) s = s.relay id c from rfl,
      find?_relay_self]
  | .unreliable .relay c, _ =>
    simp only [receiver]
    split
    · rw [find?_relay_self]
    · rfl

theorem guaranteed_performAll (e : Envelope) (watermark : Option OrderNumber)
    (handlers : List ServerHandler) (id : ConnectionId) (s : Server) :
    (((receiver id).performAll (e.calls watermark handlers) s).lobby.peers.find? id).map
      Outbound.guaranteed =
      (s.lobby.peers.find? id).map Outbound.guaranteed := by
  refine (receiver id).performAll_induct (motive := fun s' : Server =>
    (s'.lobby.peers.find? id).map Outbound.guaranteed =
      (s.lobby.peers.find? id).map Outbound.guaranteed) rfl ?_
  intro call made s' kept
  exact (guaranteed_perform (Call.belongs_of_mem_calls made) id s').trans kept

theorem guaranteed_route {endpoint : Address} {c : Connection}
    (found : s.lobby.registry.connectionAt? endpoint = some c) {bytes : List UInt8}
    {sequence : UInt32} (carried : Wire.decode bytes = .ok (.numbered sequence (.envelope e))) :
    ((s.route endpoint bytes).2.lobby.peers.find? c.id).map Outbound.guaranteed =
      (s.lobby.peers.find? c.id).map Outbound.guaranteed := by
  have touched : (c.touch s.now).inbound = c.inbound ∧ (c.touch s.now).id = c.id := ⟨rfl, rfl⟩
  unfold route
  simp only [carried, routePacket, Packet.numbered, found, routeConnected, routeEnvelope,
    Receiver.receive_eq, touched]
  by_cases newer : e.order.isNewer c.inbound.watermark
  · simp only [newer, if_true]
    exact guaranteed_performAll e _ _ c.id { s with lobby := s.lobby.modify c.id (·.touch s.now) }
  · simp only [newer]
    rfl

/-- The guaranteed commands that an envelope makes wait for a peer: what it brings, if it is
somebody else's. -/
theorem queued_route {endpoint : Address} {fresh : List Command} (proper : e.Proper)
    (relays : s.handlers.count .relay = 1) (taken : s.takes endpoint e = some (id, fresh))
    {bytes : List UInt8} {sequence : UInt32}
    (carried : Wire.decode bytes = .ok (.numbered sequence (.envelope e)))
    (present : (s.lobby.peers.find? k).isSome = true) :
    PeerSlot.queued (s.lobby.peers.find? k) ((s.route endpoint bytes).2.lobby.peers.find? k)
      = if k = id then [] else fresh := by
  unfold takes at taken
  split at taken
  case h_2 => cases taken
  case h_1 c found =>
    split at taken
    case isFalse => cases taken
    case isTrue newer =>
      cases taken
      split
      case isFalse other =>
        rw [find?_route found carried other, PeerSlot.queued_enqueueEach present, passedOn,
          if_pos newer, relays]
        exact proper.queues _
      case isTrue own =>
        subst own
        exact PeerSlot.queued_of_guaranteed (guaranteed_route found carried)

/-- What an envelope of a connection hands to the relay. -/
theorem said_callsIn (relays : s.handlers.count .relay = 1) (c : Connection) (e : Envelope)
    (before : Nat) :
    (s.callsIn c e).filterMap (Made.said? before) =
      if e.order.isNewer c.inbound.watermark then
        (e.freshCommands c.inbound.watermark).map (Said.mk c.id before)
      else [] := by
  have own (made : Made) (mem : made ∈ s.callsIn c e) : made.source = c.id := by
    obtain ⟨_, _, rfl⟩ := List.mem_map.1 mem
    rfl
  have handed : (s.callsIn c e).filterMap (Made.said? before)
      = (handedTo .relay ((s.callsIn c e).map Made.call)).map (Said.mk c.id before) := by
    rw [handedTo, List.filterMap_map, List.map_filterMap]
    apply List.filterMap_congr
    intro made mem
    rw [Made.said?, own made mem]
    rfl
  rw [handed, calls_callsIn]
  split
  · rw [handedTo_calls, relays]
    exact congrArg _ (List.flatMap_singleton' _)
  · rfl

/-- An envelope hands the relay its new guaranteed commands, in the name of the connection that
takes it. -/
theorem said_callsOf {endpoint : Address} (relays : s.handlers.count .relay = 1)
    {bytes : List UInt8} {sequence : UInt32}
    (carried : Wire.decode bytes = .ok (.numbered sequence (.envelope e))) (before : Nat) :
    (s.callsOf endpoint bytes).filterMap (Made.said? before) =
      (s.takes endpoint e).elim [] fun taken => taken.2.map (Said.mk taken.1 before) := by
  unfold callsOf takes
  simp only [carried, Packet.numbered]
  cases s.lobby.registry.connectionAt? endpoint with
  | none => rfl
  | some c =>
    have touched : (c.touch s.now).inbound = c.inbound ∧ (c.touch s.now).id = c.id := ⟨rfl, rfl⟩
    have heard := said_callsIn (s := { s with lobby := s.lobby.modify c.id (·.touch s.now) }) relays
      (c.touch s.now) e before
    rw [touched.1, touched.2] at heard
    apply heard.trans
    dsimp only
    split <;> rfl

end

end Server

namespace Hub

/-- What each peer was queued on behalf of others is what the relay was handed from them since it
joined. -/
structure Relayed (w : Hub) : Prop where
  past : ∀ d ∈ w.said, d.before < w.said.length
  joined : ∀ k, w.joined k ≤ w.said.length
  relayed : ∀ k, (w.slot k).isSome = true →
    (w.queued k).filterMap Queued.said? = w.said.filter fun d =>
    d.source ≠ k ∧ w.joined k ≤ d.before

section
variable {w w' : Hub} {k : ConnectionId}

theorem relayed_start (clientConfig : Address → ClientConfig) (serverConfig : ServerConfig)
    (serverAddress : Address) :
    (start clientConfig serverConfig serverAddress).Relayed :=
  ⟨nofun, fun _ => Nat.le_refl 0, nofun⟩

@[simp] theorem said?_mk_none (commands : List Command) :
    (commands.map (Queued.mk none)).filterMap Queued.said? = [] := by
  simp [List.filterMap_map, Function.comp_def, Queued.said?]

@[simp] theorem said?_mk_some (source : ConnectionId) (before : Nat) (commands : List Command) :
    (commands.map (Queued.mk (some (source, before)))).filterMap Queued.said? =
      commands.map (Said.mk source before) := by
  simp [List.filterMap_map, Function.comp_def, Queued.said?]

/-- What the server does on nobody's behalf. -/
theorem Relayed.serve (h : w.Relayed) {s : Server}
    (present : ∀ k, (s.lobby.peers.find? k).isSome = true → (w.slot k).isSome = true) :
    (w.serve none s).Relayed := by
  refine ⟨h.past, h.joined, fun k there => ?_⟩
  simp only [Hub.serve, List.filterMap_append, said?_mk_none, List.append_nil]
  exact h.relayed k (present k there)

theorem Relayed.keeps (h : w.Relayed) {s : Server}
    (keeps : Server.Keeps (fun _ => none) w.server s) :
    (w.serve none s).Relayed :=
  h.serve fun k => (keeps.lobby.slots k).isSome

/-- A connection is opened: it is to be told what is said from now on. -/
theorem Relayed.opens (h : w.Relayed) {s : Server} {id : ConnectionId} (endpoint : Address)
    (opens : Lobby.Opens w.server.lobby s.lobby id) :
    ((w.enlist id endpoint).serve none s).Relayed := by
  refine ⟨h.past, fun k => ?_, fun k there => ?_⟩
  · exact ((Function.forall_update_iff w.joined fun _ n => n ≤ w.said.length).2
      ⟨Nat.le_refl _, fun j _ => h.joined j⟩) k
  · simp only [Hub.serve, enlist, List.filterMap_append, said?_mk_none, List.append_nil]
    by_cases same : k = id
    · subst same
      simp only [Function.update_self, List.filterMap_nil]
      -- whatever has been said came before the connection
      refine (List.filter_eq_nil_iff.2 fun d mem => ?_).symm
      have := h.past d mem
      simp only [decide_eq_true_eq]
      omega
    · simp only [Function.update_of_ne same]
      apply h.relayed k
      have there : (s.lobby.peers.find? k).isSome = true := there
      rwa [opens.others k same] at there

theorem Relayed.hearBare (h : w.Relayed) (sound : w.Sound) (endpoint : Address) {bytes : List UInt8}
    (bare : ∀ p e, Wire.decode bytes = .ok p → p.body ≠ .envelope e) :
    (w.hearBare endpoint bytes).Relayed := by
  unfold Hub.hearBare
  cases registered : Server.Routed.registered? (w.server.route endpoint bytes).1 with
  | none =>
    simp only [registered]
    exact h.keeps (Server.route_keeps _ sound.housed.keyed endpoint bare registered)
  | some id =>
    simp only [registered]
    exact h.opens endpoint (Server.opens_route endpoint registered).2

/-- An envelope is taken: each of its new guaranteed commands goes to all but its source. -/
theorem Relayed.says (h : w.Relayed) {s : Server} {id : ConnectionId} (fresh : List Command)
    (present : ∀ k, (s.lobby.peers.find? k).isSome = true → (w.slot k).isSome = true)
    (queued : ∀ k, (w.slot k).isSome = true →
      PeerSlot.queued (w.slot k) (s.lobby.peers.find? k) = if k = id then [] else fresh) :
    { w.serve (some (id, w.said.length)) s with
      said := w.said ++ fresh.map (Said.mk id w.said.length) }.Relayed where
  past d mem := by
    rcases List.mem_append.1 mem with old | new
    · exact Nat.lt_of_lt_of_le (h.past d old) (by simp)
    · obtain ⟨c, spoken, rfl⟩ := List.mem_map.1 new
      have := List.length_pos_of_mem spoken
      simp only [List.length_append, List.length_map]
      omega
  joined k := Nat.le_trans (h.joined k) (by simp)
  relayed k there := by
    have before := present k there
    have here : (w.serve (some (id, w.said.length)) s).queued k
        = w.queued k ++ (if k = id then [] else fresh).map
        (Queued.mk (some (id, w.said.length))) := by
      rw [← queued k before]
      rfl
    have new : (fresh.map (Said.mk id w.said.length)).filter
        (fun d => d.source ≠ k ∧ w.joined k ≤ d.before) =
        (if k = id then [] else fresh).map (Said.mk id w.said.length) := by
      split
      case isTrue same => simp [same]
      case isFalse other => simp [List.filter_map, Function.comp_def, Ne.symm other, h.joined k]
    simp only [here, List.filterMap_append, said?_mk_some, List.filter_append, h.relayed k before]
    exact congrArg _ new.symm

theorem Relayed.hearUp (h : w.Relayed) (sound : w.Sound) {a : Address} {e : Envelope}
    (sent : e ∈ w.up a) (relays : w.server.handlers.count .relay = 1) {sequence : UInt32}
    {bytes : List UInt8} (carried : Wire.decode bytes = .ok (.numbered sequence (.envelope e))) :
    (w.hearUp a e bytes).Relayed := by
  have proper := sound.posted a e sent
  obtain ⟨refused, taken⟩ :=
    Server.route_envelope sound.housed.keyed a carried (proper.plain.not_forges a)
  unfold Hub.hearUp Hub.origin?
  rw [Server.said_callsOf relays carried]
  cases takes : w.server.takes a e with
  | none =>
    simp only [Option.elim, List.append_nil]
    exact h.keeps (refused takes)
  | some result =>
    obtain ⟨id, fresh⟩ := result
    obtain ⟨s, kept, routed⟩ := taken id fresh takes
    apply h.says fresh
    · intro k there
      simp only [routed] at there
      exact (kept.lobby.slots k).isSome there
    · intro k there
      exact Server.queued_route proper relays takes carried there

theorem step_relayed (step : Step w w') (sound : w.Sound) (h : w.Relayed) : w'.Relayed := by
  cases step with
  | connect | client | update | down => exact ⟨h.past, h.joined, h.relayed⟩
  | server s act => exact h.keeps (Server.act_keeps act)
  | flush connections peers =>
    have served := h.serve fun k =>
      ((w.server.flushIn_moves (fun _ => none) connections peers).lobby.slots k).isSome
    exact ⟨served.past, served.joined, served.relayed⟩
  | datagram endpoint bytes bare => exact h.hearBare sound endpoint bare
  | up a e sequence bytes sent carried relays => exact h.hearUp sound sent relays carried

/-- Whatever happens, the parties are sound, what they have sent and received is on record, and the
relay has passed everything on. -/
theorem Run.keeps {w₀ : Hub} (run : Run w₀ w) {mine₀ : Address → Half}
    {theirs₀ : ConnectionId → Half} (sound : w₀.Sound) (tallies : w₀.Tallies mine₀ theirs₀)
    (relayed : w₀.Relayed) :
    (∃ mine theirs, w.Tallies mine theirs) ∧ w.Sound ∧ w.Relayed := by
  induction run with
  | start => exact ⟨⟨mine₀, theirs₀, tallies⟩, sound, relayed⟩
  | next _ step ih =>
    obtain ⟨⟨_, _, tallies⟩, sound, relayed⟩ := ih
    exact ⟨step_tallies step sound tallies, step_sound step sound, step_relayed step sound relayed⟩

end

/-- The connection is the client's only one, it still has a slot, and neither side has sent too
much. -/
structure Serves (w : Hub) (k : ConnectionId) (a : Address) : Prop where
  apart : w.Apart a k
  opened : (k, a) ∈ w.opened
  present : (w.slot k).isSome = true
  few : w.Few a k

/-- What a client's handlers have been handed, as it was queued for its connection. -/
def heard (w : Hub) (a : Address) (k : ConnectionId) : List Queued :=
  (w.queued k).take (w.handed a).length

/-- What was said by others than these two, since both had joined. -/
def fromOthers (w : Hub) (j k : ConnectionId) (said : List Said) : List Said :=
  said.filter fun d => (d.source ≠ j ∧ d.source ≠ k) ∧ w.joined j ≤ d.before ∧ w.joined k ≤ d.before

/-- A client has been handed the first ones of the commands that were queued for its connection. -/
theorem Tallies.handed_eq {w : Hub} {mine : Address → Half} {theirs : ConnectionId → Half}
    (h : w.Tallies mine theirs) {k : ConnectionId} {a : Address} (serves : w.Serves k a) :
    w.handed a = (w.heard a k).map Queued.command := by
  have ahead := (h.paired a k serves.apart serves.few).2.agree.delivered_prefix
  rw [(h.client a).handed, ← h.queued k serves.apart.1 serves.present] at ahead
  rw [heard, List.map_take]
  exact List.prefix_iff_eq_take.1 ahead

/-- What a client was handed of what others have said comes first in the sequence of it all. -/
theorem Relayed.fromOthers_prefix {w : Hub} (h : w.Relayed) {k : ConnectionId}
    (present : (w.slot k).isSome = true) (a : Address) {i j : ConnectionId} (own : k = i ∨ k = j) :
    w.fromOthers i j ((w.heard a k).filterMap Queued.said?) <+: w.fromOthers i j w.said := by
  have queued : w.fromOthers i j ((w.queued k).filterMap Queued.said?) =
      w.fromOthers i j w.said := by
    rw [h.relayed k present, fromOthers, fromOthers, List.filter_filter]
    apply List.filter_congr
    intro d _
    rcases own with rfl | rfl <;> simp <;> tauto
  rw [← queued]
  exact ((List.take_prefix _ _).filterMap _).filter _

/-- The relay is consistent.  A peer has been queued, on behalf of others, the guaranteed commands
that the relay was handed from them since it joined, each once and in that order.  A client has been
handed a first part of what was queued for it; and of what others have said since two clients had
joined, one of the two has been handed what the other one has, and perhaps more.  What a client has
been handed is what the calls of its receiver say. -/
theorem relay_consistent (clientConfig : Address → ClientConfig) (serverConfig : ServerConfig)
    (serverAddress : Address) {w : Hub}
    (run : Run (start clientConfig serverConfig serverAddress) w) :
    (∀ p, (w.slot p).isSome = true →
      (w.queued p).filterMap Queued.said? = w.said.filter fun d =>
        d.source ≠ p ∧ w.joined p ≤ d.before) ∧
    (∀ k a, w.Serves k a → w.handed a = (w.heard a k).map Queued.command) ∧
    (∀ j b k c, w.Serves j b → w.Serves k c →
      let atB := w.fromOthers j k ((w.heard b j).filterMap Queued.said?)
      let atC := w.fromOthers j k ((w.heard c k).filterMap Queued.said?)
      atB <+: atC ∨ atC <+: atB) ∧
    w.Called := by
  obtain ⟨⟨mine, theirs, tallies⟩, _, relayed⟩ := run.keeps
    (sound_start clientConfig serverConfig serverAddress)
    (tallies_start clientConfig serverConfig serverAddress)
    (relayed_start clientConfig serverConfig serverAddress)
  refine ⟨relayed.relayed, fun k a serves => tallies.handed_eq serves,
    fun j b k c first second => ?_,
    run.called (called_start clientConfig serverConfig serverAddress)⟩
  exact List.prefix_or_prefix_of_prefix (relayed.fromOthers_prefix first.present b (.inl rfl))
    (relayed.fromOthers_prefix second.present c (.inr rfl))

/-! ## Three clients -/

section
open Sessions
variable {w₀ w : Hub}

theorem Run.toServer (run : Run w₀ w) (a : Address) (p : Packet)
    (arrives : Wire.decode (datagramOf p) = .ok p) (other : ∀ e, p.body ≠ .envelope e) :
    Run w₀ (w.hearBare a (datagramOf p)) :=
  run.next (.datagram w a _ (bare_of_decode arrives other))

theorem Run.toClient (run : Run w₀ w) (a : Address) (p : Packet)
    (arrives : Wire.decode (datagramOf p) = .ok p) (other : ∀ e, p.body ≠ .envelope e) :
    Run w₀ { w with
      clients := Function.update w.clients a
        ((w.clients a).takeDatagram (w.clients a).server (datagramOf p)) } :=
  run.next (.client w a _ (.datagram _ _ _ (bare_of_decode arrives other)))

theorem Run.say (run : Run w₀ w) (a : Address) (c : Command) (message : c.confirmed? = none) :
    Run w₀ { w with
      clients := Function.update (Function.update w.clients a ((w.clients a).enqueue c).2) a
        (Function.update w.clients a ((w.clients a).enqueue c).2 a).update.2
      up := noted w.up a
        (Function.update w.clients a ((w.clients a).enqueue c).2 a).builds.toList } :=
  (run.next (.client w a _ (.enqueue _ c message))).next (.update _ a)

theorem Run.up (run : Run w₀ w) (a : Address) (sequence : UInt32) (e : Envelope) (sent : e ∈ w.up a)
    (arrives : Wire.decode (datagramOf (envelopeOf sequence e)) = .ok (envelopeOf sequence e))
    (relays : w.server.handlers.count .relay = 1) :
    Run w₀ (w.hearUp a e (datagramOf (envelopeOf sequence e))) :=
  run.next (.up w a e sequence _ sent arrives relays)

theorem Run.down (run : Run w₀ w) (k : ConnectionId) (a : Address) (sequence : UInt32)
    (e : Envelope) (own : (k, a) ∈ w.opened) (sent : e ∈ w.down k)
    (arrives : Wire.decode (datagramOf (envelopeOf sequence e)) = .ok (envelopeOf sequence e)) :
    Run w₀ (w.hearDown a e (datagramOf (envelopeOf sequence e))) :=
  run.next (.down w k a e sequence _ own sent arrives)

end

open Sessions in
/-- The second client misses the first envelope for it, and the third one the second. -/
theorem relay_consistent_lossy :
    let serverAddress : Address := ⟨.v4 167772161, 7000⟩
    let a : Address := ⟨.v4 167772162, 50000⟩
    let b : Address := ⟨.v4 167772163, 50000⟩
    let c : Address := ⟨.v4 167772164, 50000⟩
    let first : Command := .message .guaranteed 1 [170]
    let second : Command := .message .guaranteed 1 [187]
    let third : Command := .message .guaranteed 1 [204]
    ∃ w, Run (start (fun _ => {}) {} serverAddress) w ∧ w.opened = [(1, a), (2, b), (3, c)] ∧
      w.Serves 2 b ∧ w.Serves 3 c ∧ w.said = [⟨1, 0, first⟩, ⟨2, 1, second⟩, ⟨1, 2, third⟩] ∧
      (w.queued 2).filterMap Queued.said? =
        w.said.filter (fun d => d.source ≠ 2 ∧ w.joined 2 ≤ d.before) ∧
      w.handed b = [first, third] ∧ w.handed b = (w.heard b 2).map Queued.command ∧
      w.handed c = [first, second] ∧
      (w.clients b).deliveries = (w.handed b).map (⟨"chat", none, .guaranteed, ·⟩) ∧
      handedTo (.application ⟨"chat", 0⟩) (w.calls b) = (w.handed b).flatMap (List.replicate 1) ∧
      let atB := w.fromOthers 2 3 ((w.heard b 2).filterMap Queued.said?)
      let atC := w.fromOthers 2 3 ((w.heard c 3).filterMap Queued.said?)
      (atB <+: atC ∨ atC <+: atB) ∧ atB = [⟨1, 0, first⟩, ⟨1, 2, third⟩] ∧
      atC = [⟨1, 0, first⟩] := by
  intro serverAddress a b c first second third
  have begun : Run (start (fun _ => {}) {} serverAddress) _ := .start
  have relays := begun.next (.server _ _ (.addHandler _ .relay))
  have connected := ((relays.next (.connect _ a 1 (by decide +kernel))).next
    (.connect _ b 2 (by decide +kernel))).next (.connect _ c 3 (by decide +kernel))
  have attended := connected.next (.client _ b _ (.introduce _ "chat"))
  have opened :=
    ((attended.toServer a (helloOf 0 1) (by decide +kernel) nofun).toServer b (helloOf 0 2)
    (by decide +kernel) nofun).toServer c (helloOf 0 3) (by decide +kernel) nofun
  have welcomed :=
    ((opened.toClient a (welcomeOf 1) (by decide +kernel) nofun).toClient b (welcomeOf 2)
    (by decide +kernel) nofun).toClient c (welcomeOf 3) (by decide +kernel) nofun
  have spoken := (welcomed.say a first rfl).say b second rfl
  have taken := (spoken.up a 1 ⟨0, [⟨0, [first]⟩], []⟩ (by decide +kernel) (by decide +kernel)
    (by decide +kernel)).up b 1 ⟨0, [⟨0, [second]⟩], []⟩ (by decide +kernel) (by decide +kernel)
    (by decide +kernel)
  have told := (taken.next (.flush _ [1, 2, 3] [1, 2, 3])).down 3 c 0
    ⟨0, [⟨0, [first, second]⟩], []⟩ (by decide +kernel) (by decide +kernel) (by decide +kernel)
  have takenAgain := (told.say a third rfl).up a 2 ⟨1, [⟨0, [first]⟩, ⟨1, [third]⟩], []⟩
    (by decide +kernel) (by decide +kernel) (by decide +kernel)
  have toldAgain := (takenAgain.next (.flush _ [1, 2, 3] [1, 2, 3])).down 2 b 1
    ⟨1, [⟨0, [first]⟩, ⟨1, [third]⟩], []⟩ (by decide +kernel) (by decide +kernel)
    (by decide +kernel)
  obtain ⟨queued, handed, agree, called⟩ :=
    relay_consistent (fun _ => {}) {} serverAddress toldAgain
  refine ⟨_, toldAgain, by decide +kernel, ?atB, ?atC, by decide +kernel,
    queued 2 (by decide +kernel), by decide +kernel, handed 2 b ?atB, by decide +kernel,
    by decide +kernel, called.handed b (.application ⟨"chat", 0⟩) 1 (by decide +kernel),
    agree 2 b 3 c ?atB ?atC, by decide +kernel, by decide +kernel⟩
  case atB => constructor <;> decide +kernel
  case atC => constructor <;> decide +kernel

end Hub
end DatagramSession
