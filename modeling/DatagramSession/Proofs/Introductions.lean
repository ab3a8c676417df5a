import DatagramSession.Proofs.Changes
import DatagramSession.Proofs.Confirmations
import DatagramSession.Proofs.Readback
import DatagramSession.Proofs.Transports
/-!
# Which ids a server tells its clients

The id of a connection is told in a control message, which waits at that connection and at no other.
`Server.Honest` is what a server keeps that hears of one endpoint only: no connection is live but
the newest, and no datagram tells an id of a connection that was not opened.  It is kept by whatever
a host does (`Does.honest`) and whatever arrives (`Honest.route`), however many connections are
opened.
-/
namespace DatagramSession

namespace Registry

/-- A live connection is the newest one, and the endpoint leads to it. -/
def Sole (r : Registry) (endpoint : Address) (newest? : Option ConnectionId) : Prop :=
  ∀ k c, r.connection? k = some c → r.byEndpoint.find? endpoint = some k ∧ newest? = some k

/-- No connection is to be told of an id that is not its own. -/
def Named (r : Registry) : Prop :=
  ∀ k c, r.connection? k = some c → ∀ j, .registered j ∈ c.control.waiting → j = k

section
variable {r r' : Registry} {endpoint : Address} {newest? : Option ConnectionId}

theorem Alike.sole (h : Alike r r') (sole : r.Sole endpoint newest?) :
    r'.Sole endpoint newest? := by
  intro k c live
  obtain ⟨c₀, before, _⟩ := h.live live
  rw [h.byEndpoint]
  exact sole k c₀ before

/-- Without a new connection, what is live was live before and is as it was. -/
theorem Effect.live (effect : Effect r none r') {k : ConnectionId} {c : Connection}
    (live : r'.connection? k = some c) : r.connection? k = some c := by
  cases effect with
  | kept => exact live
  | closed id =>
    rw [connection?_remove] at live
    split at live
    · cases live
    · exact live

theorem Effect.keyed (effect : Effect r none r') (keyed : r.Keyed) : r'.Keyed :=
  fun k c live => keyed k c (effect.live live)

theorem Effect.named (effect : Effect r none r') (named : r.Named) : r'.Named :=
  fun k c live => named k c (effect.live live)

theorem Effect.sole (effect : Effect r none r') (sole : r.Sole endpoint newest?) :
    r'.Sole endpoint newest? := by
  intro k c live
  have before := effect.live live
  obtain ⟨leads, newest⟩ := sole k c before
  refine ⟨?_, newest⟩
  cases effect with
  | kept => exact leads
  | closed id =>
    cases found : r.connection? id with
    | none =>
      have same : (r.remove id).2 = r := by simp [remove, found]
      rw [same]
      exact leads
    | some c' =>
      -- The connection that was removed would have been the one at the endpoint.
      have own := (sole id c' found).1
      rw [leads] at own
      rw [connection?_remove, if_pos (Option.some.inj own).symm] at live
      cases live

theorem sole_enrol (sole : r.Sole endpoint newest?) (free : r.connectionAt? endpoint = none)
    (nonce : Nonce) {address : Address} {others : List Address} (own : endpoint ∈ address :: others)
    (now : Instant) :
    (r.enrol nonce address others now).2.Sole endpoint (some r.nextId) := by
  intro k c live
  rw [connection?_enrol] at live
  split at live
  case isTrue same =>
    subst same
    rw [byEndpoint_enrol, if_pos own]
    exact ⟨rfl, rfl⟩
  case isFalse =>
    have taken : r.connectionAt? endpoint = some c := by
      rw [connectionAt?, (sole k c live).1]
      exact live
    rw [free] at taken
    cases taken

theorem named_modify {id : ConnectionId} {f : Connection → Connection}
    (own : ∀ c j, .registered j ∈ (f c).control.waiting →
      .registered j ∈ c.control.waiting ∨ j = id)
    (named : r.Named) : (r.modify id f).Named := by
  intro k c live j waits
  simp only [connection?, modify, Table.find?_modify] at live
  split at live
  case isTrue same =>
    obtain ⟨c₀, before, rfl⟩ := Option.map_eq_some_iff.1 live
    subst same
    rcases own c₀ j waits with old | rfl
    · exact named _ c₀ before j old
    · rfl
  case isFalse => exact named k c live j waits

theorem named_enrol (named : r.Named) (nonce : Nonce) (address : Address) (others : List Address)
    (now : Instant) :
    (r.enrol nonce address others now).2.Named := by
  intro k c live j waits
  rw [connection?_enrol] at live
  split at live
  case isTrue =>
    cases live
    cases waits
  case isFalse => exact named k c live j waits

end

end Registry

namespace Lobby

variable {l : Lobby} {endpoint : Address} {newest? : Option ConnectionId}

theorem named_introduce (named : l.registry.Named) (id : ConnectionId) (now : Instant) :
    (l.introduce id now).registry.Named := by
  unfold introduce
  split
  case h_1 c _ =>
    have announced : (l.announce c now).registry.Named := by
      refine List.foldlRecOn l.watchers _ (motive := fun l' : Lobby => l'.registry.Named) named ?_
      intro l' named watcher _
      cases watcher with
      | greeter => exact Registry.named_modify (fun _ _ waits => .inl waits) named
      | peers | events | record => exact named
    refine Registry.named_modify (fun c j waits => ?_) announced
    simpa [Connection.tell, ControlQueue.push] using waits
  case h_2 => exact named

/-- The hello that completes a connection comes from its endpoint, and no other connection is live
then. -/
theorem register_sole (sole : l.registry.Sole endpoint newest?) (named : l.registry.Named)
    {token : OrderNumber} {hello : Hello} {now : Instant} {id : ConnectionId}
    (completed : (l.register endpoint token hello now).1 = .ok (.completed id)) :
    (l.register endpoint token hello now).2.registry.Sole endpoint (some id) ∧
    (l.register endpoint token hello now).2.registry.Named := by
  obtain ⟨rfl, free, pending, tokens, address, others, own, lobby⟩ :=
    l.register_completed endpoint token hello now completed
  let r : Registry := { l.registry with pending, tokens }
  rw [lobby]
  constructor
  · apply (introduce_alike _ _ now).sole
    exact Registry.sole_enrol (r := r) sole free hello.nonce own now
  · apply named_introduce
    exact Registry.named_enrol (r := r) named hello.nonce address others now

end Lobby

/-! ## Datagrams that tell an id -/

/-- The id that a client is told. -/
def Body.introduces? : Body → Option ConnectionId
  | .control ⟨_, _, .registered id⟩ => some id
  | _ => none

/-- The id that a datagram tells. -/
def Wire.introduces? (bytes : List UInt8) : Option ConnectionId :=
  match decode bytes with
  | .ok p => p.body.introduces?
  | .error _ => none

theorem Wire.introduces?_of_encode {p : Packet} {bytes : List UInt8} (sent : encode p = .ok bytes) :
    introduces? bytes = p.body.introduces? := by
  rw [introduces?, (decode_of_encode_eq_ok sent).2]

namespace Server

/-- Only of live connections an id is told. -/
theorem Utters.live {s : Server} {target : Address} {body : Body} (own : s.Utters target body)
    (named : s.lobby.registry.Named) {j : ConnectionId} (tells : j ∈ body.introduces?) :
    ∃ c, s.connection? j = some c := by
  cases own with
  | envelope | disconnect | refusal => cases tells
  | @control k c live f head =>
    obtain ⟨m, first, rfl⟩ := Option.map_eq_some_iff.1 head
    cases m with
    | registered id =>
      cases tells
      obtain rfl := named k c live j (List.mem_of_mem_head? first)
      exact ⟨c, live⟩
    | servicesReady | kick | confirm => cases tells

/-- The server of one endpoint: no connection is live but the newest of those that were opened, and
no id was told but of these. -/
structure Honest (endpoint : Address) (opened : List ConnectionId) (s : Server) : Prop where
  keyed : s.lobby.registry.Keyed
  sole : s.lobby.registry.Sole endpoint opened.getLast?
  named : s.lobby.registry.Named
  sent : ∀ d ∈ s.transport.sent, ∀ j ∈ Wire.introduces? d.bytes, j ∈ opened

section
variable {endpoint : Address} {opened : List ConnectionId} {s s' : Server}

theorem Honest.newest (h : s.Honest endpoint opened) {k : ConnectionId} {c : Connection}
    (live : s.connection? k = some c) : opened.getLast? = some k :=
  (h.sole k c live).2

theorem Honest.of_eq (h : s.Honest endpoint opened)
    (registry : s'.lobby.registry = s.lobby.registry) (transport : s'.transport = s.transport) :
    s'.Honest endpoint opened :=
  ⟨registry ▸ h.keyed, registry ▸ h.sole, registry ▸ h.named, transport ▸ h.sent⟩

theorem Honest.modify (h : s.Honest endpoint opened) {id : ConnectionId}
    {f : Connection → Connection} (kept : ∀ c, (f c).identity = c.identity)
    (own : ∀ c j, .registered j ∈ (f c).control.waiting → .registered j ∈ c.control.waiting) :
    { s with lobby := s.lobby.modify id f }.Honest endpoint opened := by
  have alike := s.lobby.registry.alike_modify id kept
  exact ⟨alike.keyed h.keyed, alike.sole h.sole,
    Registry.named_modify (fun c j waits => .inl (own c j waits)) h.named, h.sent⟩

theorem Honest.send (h : s.Honest endpoint opened) {target : Address} {p : Packet}
    (own : s.Utters target p.body) :
    (s.send target p).2.Honest endpoint opened := by
  refine ⟨h.keyed, h.sole, h.named, fun d mem j tells => ?_⟩
  rcases Transport.mem_sent_send mem with old | encoded
  · exact h.sent d old j tells
  · rw [Wire.introduces?_of_encode encoded] at tells
    obtain ⟨c, live⟩ := own.live h.named tells
    exact List.mem_of_getLast? (h.newest live)

theorem Change.honest (change : Change s s') (h : s.Honest endpoint opened) :
    s'.Honest endpoint opened := by
  cases change with
  | aside registry transport => exact h.of_eq registry transport
  | note id f kept => exact h.modify (fun c => (kept c).1) fun c j waits => (kept c).2.1 ▸ waits
  | accept id order confirm =>
    refine h.modify (fun _ => by rfl) fun c j waits => ?_
    rcases c.control.accept_cases order confirm with ⟨m, rest, _, before, after⟩ | ⟨_, same, _⟩
    · have left : ((c.accept order confirm).2).control.waiting = rest := by
        simp [Connection.accept, after]
      rw [left] at waits
      rw [before]
      exact List.mem_cons_of_mem m waits
    · exact same ▸ waits
  | send target p own => exact h.send own
  | answer request opens =>
    have effect := s.lobby.effect_answer request
    rw [opens] at effect
    exact ⟨effect.keyed h.keyed, effect.sole h.sole, effect.named h.named, h.sent⟩

theorem Changes.honest (changes : Changes s s') (h : s.Honest endpoint opened) :
    s'.Honest endpoint opened := by
  induction changes with
  | refl => exact h
  | tail _ change ih => exact change.honest ih

/-- Whatever arrives from the endpoint, it opens one connection at most. -/
theorem Honest.route (h : s.Honest endpoint opened) (bytes : List UInt8) :
    (s.route endpoint bytes).2.Honest endpoint
      (opened ++ (Routed.registered? (s.route endpoint bytes).1).toList) := by
  cases registered : Routed.registered? (s.route endpoint bytes).1 with
  | none => simpa using (route_changes h.keyed endpoint bytes registered).honest h
  | some id =>
    obtain ⟨token, hello, completed, result⟩ := route_opens endpoint registered
    have opens := (Lobby.opens_register s.lobby endpoint token hello s.now completed).2
    obtain ⟨sole, named⟩ := Lobby.register_sole h.sole h.named completed
    rw [result]
    refine ⟨opens.keyed h.keyed, ?_, named,
      fun d mem j tells => List.mem_append_left _ (h.sent d mem j tells)⟩
    simpa using sole

/-! ## Hosts -/

/-- What a host may do with a server.  It may queue control messages, but not tell ids. -/
inductive Does : Server → Server → Prop where
  | enqueue (s : Server) (id : ConnectionId) (c : Command) : Does s (s.enqueue id c).2
  | broadcast (s : Server) (c : Command) : Does s (s.broadcast c).2
  | tell (s : Server) (id : ConnectionId) (m : ControlMessage) (other : ∀ j, m ≠ .registered j) :
      Does s (s.tell id m)
  | kick (s : Server) (id : ConnectionId) (reason : String) : Does s (s.kick id reason).2
  | close (s : Server) (id : ConnectionId) (reason : DisconnectReason) :
      Does s (s.close id reason).2
  | shutdown (s : Server) : Does s s.shutdown
  | sweep (s : Server) (order : List ConnectionId) : Does s (s.sweepIn order).2
  | flush (s : Server) (connections peers : List ConnectionId) :
      Does s (s.flushIn connections peers).2
  | addHandler (s : Server) (h : ServerHandler) : Does s (s.addHandler h)
  | removeHandler (s : Server) (h : ServerHandler) : Does s (s.removeHandler h).2
  | introduce (s : Server) (name : String) : Does s (s.introduce name)
  | addWatcher (s : Server) (w : Watcher) : Does s (s.addWatcher w)
  | takeEvents (s : Server) : Does s { s with lobby := s.lobby.takeEvents.2 }
  | takeDeliveries (s : Server) : Does s s.takeDeliveries.2
  | elapse (s : Server) (d : Duration) : Does s (s.elapse d)
  /-- The link changes. -/
  | relink (s : Server) (refuses : Datagram → Bool) :
      Does s { s with transport := { s.transport with refuses } }

theorem Does.honest (does : Does s s') (h : s.Honest endpoint opened) :
    s'.Honest endpoint opened := by
  cases does with
  | tell id m other =>
    refine h.modify (fun _ => rfl) fun c j waits => ?_
    rcases List.mem_append.1 waits with old | new
    · exact old
    · exact absurd (List.mem_singleton.1 new).symm (other j)
  | kick id reason =>
    refine h.modify (fun _ => rfl) fun c j waits => ?_
    cases List.mem_singleton.1 waits
  | close id reason => exact (close_changes s id reason).honest h
  | shutdown => exact (shutdown_changes s).honest h
  | sweep order => exact (sweepIn_changes s order).honest h
  | flush connections peers => exact (flushIn_changes s connections peers).honest h
  | relink => exact ⟨h.keyed, h.sole, h.named, h.sent⟩
  | enqueue | broadcast | addHandler | removeHandler | introduce | addWatcher | takeEvents
  | takeDeliveries | elapse =>
    exact h.of_eq (by rfl) (by rfl)

theorem honest_start (config : ServerConfig) (endpoint : Address) :
    (start config).Honest endpoint [] :=
  ⟨nofun, nofun, nofun, nofun⟩

end

end Server
end DatagramSession
