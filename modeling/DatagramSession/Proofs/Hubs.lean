import DatagramSession.Proofs.Backlogs
import DatagramSession.Proofs.Handling
import DatagramSession.Proofs.Housing
import DatagramSession.Proofs.Manners
import DatagramSession.Proofs.Relaying
import DatagramSession.Proofs.Replies
import DatagramSession.Proofs.Sessions
/-!
# A server and all its clients

A `Hub` is a server, a client at each address, and a record of what the relay and the clients have
been handed and of what was queued.  A client connects once; the network delivers whatever envelope
was built, as often as it likes, and any other datagrams.  `Hub.Sound` is what the parties keep
whatever happens (`step_sound`): a client that has not connected is idle, all envelopes are proper,
and each connection is that of one endpoint.
-/
namespace DatagramSession

/-- A guaranteed command that the relay was handed. -/
structure Said where
  source : ConnectionId
  /-- How many commands it had been handed before the envelope arrived. -/
  before : Nat
  command : Command
  deriving DecidableEq

/-- What a call hands to the relay. -/
def Server.Made.said? (before : Nat) (made : Server.Made) : Option Said :=
  (made.call.guaranteedTo? .relay).map (Said.mk made.source before)

/-- A guaranteed command that was queued for a peer. -/
structure Queued where
  /-- The connection whose envelope was being taken, and how many commands the relay had been handed
  before. -/
  origin? : Option (ConnectionId × Nat)
  command : Command
  deriving DecidableEq

/-- What the relay has passed on. -/
def Queued.said? (q : Queued) : Option Said :=
  q.origin?.map fun (source, before) => ⟨source, before, q.command⟩

structure Hub where
  server : Server
  clients : Address → Client
  /-- The addresses whose clients have connected. -/
  connected : List Address := []
  /-- The connections that were opened, each with the endpoint of the hello that completed it. -/
  opened : List (ConnectionId × Address) := []
  /-- The envelopes that each client built. -/
  up : Address → List Envelope := fun _ => []
  /-- The envelopes that the server built for each connection. -/
  down : ConnectionId → List Envelope := fun _ => []
  /-- The guaranteed commands that the relay was handed, in order. -/
  said : List Said := []
  /-- How many of them had been handed out when each connection was opened. -/
  joined : ConnectionId → Nat := fun _ => 0
  /-- The guaranteed commands that were queued for each connection since it was opened. -/
  queued : ConnectionId → List Queued := fun _ => []
  /-- The guaranteed commands that each client's handlers were handed. -/
  handed : Address → List Command := fun _ => []
  /-- The calls that each client has made. -/
  calls : Address → List (Call ClientHandler) := fun _ => []
  /-- The handlers of each client whenever an envelope arrived. -/
  listening : Address → List (List ClientHandler) := fun _ => []

theorem Envelope.Proper.plain {e : Envelope} (h : e.Proper) : Server.Plain e :=
  fun b hb c hc => Command.confirmed?_of_isGuaranteed (h.batches b hb c hc).1

/-- Whoever is disconnected stays so. -/
theorem Client.Act.still {c c' : Client} (act : Act c c') (off : c.state = .disconnected) :
    c'.state = .disconnected := by
  cases act with
  | disconnect =>
    rw [Client.disconnect, if_pos off]
    exact off
  | datagram source bytes =>
    rw [takeDatagram_of_disconnected off]
    exact off
  | enqueue | addHandler | removeHandler | introduce | takeDeliveries | elapse | relink => exact off

namespace Hub

/-- A server with one channel, and clients that have not done anything yet. -/
def start (clientConfig : Address → ClientConfig) (serverConfig : ServerConfig)
    (serverAddress : Address) : Hub where
  server := .start { serverConfig with channels := 1 }
  clients := fun a => { config := clientConfig a, server := serverAddress }

/-- The slot of a connection. -/
def slot (w : Hub) (k : ConnectionId) : PeerSlot :=
  w.server.lobby.peers.find? k

/-- The server has changed, perhaps while taking an envelope. -/
def serve (w : Hub) (origin? : Option (ConnectionId × Nat)) (s : Server) : Hub :=
  { w with
    server := s
    queued := fun k =>
      w.queued k ++ (PeerSlot.queued (w.slot k) (s.lobby.peers.find? k)).map fun c => ⟨origin?, c⟩ }

/-- The record of a connection begins when it is opened. -/
def enlist (w : Hub) (id : ConnectionId) (endpoint : Address) : Hub :=
  { w with
    opened := w.opened ++ [(id, endpoint)]
    joined := Function.update w.joined id w.said.length
    queued := Function.update w.queued id [] }

/-- A datagram without an envelope arrives at the server. -/
def hearBare (w : Hub) (endpoint : Address) (bytes : List UInt8) : Hub :=
  let (routed, server) := w.server.route endpoint bytes
  match Server.Routed.registered? routed with
  | some id => (w.enlist id endpoint).serve none server
  | none => w.serve none server

/-- On whose behalf the server acts when it takes an envelope. -/
def origin? (w : Hub) (endpoint : Address) (e : Envelope) : Option (ConnectionId × Nat) :=
  (w.server.takes endpoint e).map fun taken => (taken.1, w.said.length)

/-- An envelope arrives at the server. -/
def hearUp (w : Hub) (endpoint : Address) (e : Envelope) (bytes : List UInt8) : Hub :=
  { w.serve (w.origin? endpoint e) (w.server.route endpoint bytes).2 with
    said :=
    w.said ++ (w.server.callsOf endpoint bytes).filterMap (Server.Made.said? w.said.length) }

/-- An envelope arrives at a client. -/
def hearDown (w : Hub) (a : Address) (e : Envelope) (bytes : List UInt8) : Hub :=
  let c := w.clients a
  { w with
    clients := Function.update w.clients a (c.takeDatagram c.server bytes)
    handed := noted w.handed a (c.hands e)
    calls := noted w.calls a (c.callsOf c.server bytes)
    listening := noted w.listening a [c.handlers] }

/-- One thing that happens.  The relay is registered, once, whenever an envelope arrives. -/
inductive Step : Hub → Hub → Prop where
  | connect (w : Hub) (a : Address) (nonce : Nonce) (first : a ∉ w.connected) :
      Step w { w with
        clients := Function.update w.clients a ((w.clients a).connect nonce).2
        connected := w.connected ++ [a] }
  | client (w : Hub) (a : Address) (c : Client) (act : Client.Act (w.clients a) c) :
      Step w { w with clients := Function.update w.clients a c }
  | update (w : Hub) (a : Address) :
      Step w { w with
        clients := Function.update w.clients a (w.clients a).update.2
        up := noted w.up a (w.clients a).builds.toList }
  | server (w : Hub) (s : Server) (act : Server.Act w.server s) : Step w (w.serve none s)
  | flush (w : Hub) (connections peers : List ConnectionId) :
      Step w { w.serve none (w.server.flushIn connections peers).2 with
        down := fun k => w.down k ++ w.server.buildsFor connections peers k }
  | datagram (w : Hub) (endpoint : Address) (bytes : List UInt8)
      (bare : ∀ p e, Wire.decode bytes = .ok p → p.body ≠ .envelope e) :
      Step w (w.hearBare endpoint bytes)
  | up (w : Hub) (a : Address) (e : Envelope) (sequence : UInt32) (bytes : List UInt8)
      (sent : e ∈ w.up a) (carried : Wire.decode bytes = .ok (.numbered sequence (.envelope e)))
      (relays : w.server.handlers.count .relay = 1) : Step w (w.hearUp a e bytes)
  | down (w : Hub) (k : ConnectionId) (a : Address) (e : Envelope) (sequence : UInt32)
      (bytes : List UInt8) (own : (k, a) ∈ w.opened) (sent : e ∈ w.down k)
      (carried : Wire.decode bytes = .ok (.numbered sequence (.envelope e))) :
      Step w (w.hearDown a e bytes)

inductive Run (w₀ : Hub) : Hub → Prop where
  | start : Run w₀ w₀
  | next {w w' : Hub} : Run w₀ w → Step w w' → Run w₀ w'

/-! ## The parties -/

/-- What the server and the clients keep. -/
structure Sound (w : Hub) : Prop where
  tidy : ∀ a, (w.clients a).Tidy
  /-- Who has not connected has not done anything. -/
  idle : ∀ a ∉ w.connected, (w.clients a).state = .disconnected
  proper : ∀ a, (w.clients a).outbound.Proper
  posted : ∀ a, ∀ e ∈ w.up a, e.Proper
  housed : w.server.lobby.registry.Housed w.opened

section
variable {w w' : Hub} {a : Address}

theorem sound_start (clientConfig : Address → ClientConfig) (serverConfig : ServerConfig)
    (serverAddress : Address) :
    (start clientConfig serverConfig serverAddress).Sound :=
  ⟨fun _ _ => rfl, fun _ _ => rfl, fun _ => PeerSlot.proper_none, nofun,
    Registry.housed_empty _ _ _⟩

/-- A client goes on. -/
theorem Sound.onClient (h : w.Sound) {c : Client} {built : List Envelope}
    (tidy : (w.clients a).Tidy → c.Tidy)
    (idle : (w.clients a).state = .disconnected → c.state = .disconnected)
    (proper : c.outbound.Proper) (posted : ∀ e ∈ built, e.Proper) :
    { w with clients := Function.update w.clients a c, up := noted w.up a built }.Sound := by
  constructor
  case tidy =>
    exact (Function.forall_update_iff w.clients fun _ c => c.Tidy).2
      ⟨tidy (h.tidy a), fun b _ => h.tidy b⟩
  case idle =>
    apply (Function.forall_update_iff w.clients fun b c =>
      b ∉ w.connected → c.state = .disconnected).2
    exact ⟨fun new => idle (h.idle a new), fun b _ => h.idle b⟩
  case proper =>
    exact (Function.forall_update_iff w.clients fun _ c => c.outbound.Proper).2
      ⟨proper, fun b _ => h.proper b⟩
  case posted =>
    intro b e sent
    rcases mem_noted sent with old | ⟨_, new⟩
    · exact h.posted b e old
    · exact posted e new
  case housed => exact h.housed

theorem Sound.moveClient (h : w.Sound) {c : Client} (tidy : (w.clients a).Tidy → c.Tidy)
    (idle : (w.clients a).state = .disconnected → c.state = .disconnected)
    (proper : c.outbound.Proper) :
    { w with clients := Function.update w.clients a c }.Sound := by
  have none : ∀ e ∈ ([] : List Envelope), e.Proper := nofun
  have on := h.onClient tidy idle proper none
  rwa [noted_nil] at on

theorem Sound.serve (h : w.Sound) (origin? : Option (ConnectionId × Nat)) {s : Server}
    (housed : s.lobby.registry.Housed w.opened) : (w.serve origin? s).Sound :=
  ⟨h.tidy, h.idle, h.proper, h.posted, housed⟩

theorem step_sound (step : Step w w') (h : w.Sound) : w'.Sound := by
  cases step with
  | connect a nonce first =>
    obtain ⟨_, tidy, _⟩ := (w.clients a).connect_restarts nonce
    constructor
    case tidy =>
      exact (Function.forall_update_iff w.clients fun _ c => c.Tidy).2 ⟨tidy, fun b _ => h.tidy b⟩
    case idle =>
      intro b new
      have other : b ≠ a := fun same => new (List.mem_append_right _ (List.mem_singleton.2 same))
      exact (congrArg Client.state (Function.update_of_ne other _ _)).trans
        (h.idle b fun old => new (List.mem_append_left _ old))
    case proper =>
      apply (Function.forall_update_iff w.clients fun _ c => c.outbound.Proper).2
      exact ⟨PeerSlot.proper_none, fun b _ => h.proper b⟩
    case posted => exact h.posted
    case housed => exact h.housed
  | client a c act =>
    exact h.moveClient (Client.act_moves act).tidy (Client.Act.still act)
      (Client.Act.proper act (h.proper a))
  | update a =>
    refine h.onClient (w.clients a).moves_update.tidy (fun off => ?_)
      (Client.proper_update (h.proper a)) ?_
    · rw [Client.update, if_pos off]
      exact off
    · intro e built
      exact Client.proper_builds (h.proper a) e (Option.mem_toList.1 built)
  | server s act => exact h.serve none (Server.Act.housed act h.housed)
  | flush connections peers =>
    have served := h.serve none ((w.server.flushIn_changes connections peers).housed h.housed)
    exact ⟨served.tidy, served.idle, served.proper, served.posted, served.housed⟩
  | datagram endpoint bytes bare =>
    have housed := Server.housed_route h.housed endpoint bytes
    unfold hearBare
    dsimp only
    split
    case h_1 id registered =>
      rw [registered] at housed
      exact ⟨h.tidy, h.idle, h.proper, h.posted, housed⟩
    case h_2 registered =>
      rw [registered] at housed
      exact h.serve none (by simpa using housed)
  | up a e sequence bytes sent carried relays =>
    have housed := Server.housed_route h.housed a bytes
    rw [Server.registered?_envelope carried, Option.toList_none, List.map_nil, List.append_nil]
      at housed
    exact ⟨h.tidy, h.idle, h.proper, h.posted, housed⟩
  | down k a e sequence bytes own sent carried =>
    obtain ⟨refused, taken⟩ := (w.clients a).takeDatagram_envelope carried
    have heard := h.moveClient (a := a) (c := (w.clients a).takeDatagram (w.clients a).server bytes)
      ?_ ?_ (Client.proper_takeDatagram (h.proper a) _ bytes)
    · exact ⟨heard.tidy, heard.idle, heard.proper, heard.posted, heard.housed⟩
    · cases accepts : (w.clients a).accepts e with
      | false => exact (refused accepts).tidy
      | true =>
        obtain ⟨c, moves, result⟩ := taken accepts
        rw [result]
        exact moves.tidy
    · intro off
      rw [Client.takeDatagram_of_disconnected off]
      exact off

/-! ## The calls of the clients -/

/-- What the clients were handed is what the calls on record say.  Their applications have been
given the deliveries of these calls; and a handler that was registered `n` times whenever an
envelope arrived was handed each command as often. -/
structure Called (w : Hub) : Prop where
  deliveries : ∀ a, (w.clients a).deliveries <:+ (w.calls a).filterMap Client.delivery?
  handed : ∀ a h n, (∀ handlers ∈ w.listening a, handlers.count h = n) →
    handedTo h (w.calls a) = (w.handed a).flatMap (List.replicate n)

theorem called_start (clientConfig : Address → ClientConfig) (serverConfig : ServerConfig)
    (serverAddress : Address) : (start clientConfig serverConfig serverAddress).Called :=
  ⟨fun _ => List.suffix_rfl, fun _ _ _ _ => rfl⟩

/-- A client does something without an envelope: its application may take deliveries. -/
theorem Called.moveClient (h : w.Called) {c : Client} {connected : List Address}
    {up : Address → List Envelope}
    (told : Told (Client.Hears none) (w.clients a).deliveries c.deliveries) :
    { w with clients := Function.update w.clients a c, connected, up }.Called where
  deliveries b := by
    have fewer : c.deliveries <:+ (w.clients a).deliveries := told.suffix nofun
    revert b
    apply (Function.forall_update_iff w.clients fun b c =>
      c.deliveries <:+ (w.calls b).filterMap Client.delivery?).2
    exact ⟨fewer.trans (h.deliveries a), fun b _ => h.deliveries b⟩
  handed := h.handed

theorem Called.hearDown (h : w.Called) {e : Envelope} {sequence : UInt32} {bytes : List UInt8}
    (carried : Wire.decode bytes = .ok (.numbered sequence (.envelope e))) :
    (w.hearDown a e bytes).Called where
  deliveries b := by
    by_cases same : b = a
    · subst same
      obtain ⟨taken, all⟩ := h.deliveries b
      simp only [Hub.hearDown, Function.update_self, noted_self, Client.deliveries_takeDatagram,
        List.filterMap_append, ← all]
      exact ⟨taken, (List.append_assoc _ _ _).symm⟩
    · simpa only [Hub.hearDown, Function.update_of_ne same, noted_of_ne same] using h.deliveries b
  handed b listener n registered := by
    by_cases same : b = a
    · subst same
      have here : (w.clients b).handlers.count listener = n :=
        registered _ (by simp [Hub.hearDown])
      have before := h.handed b listener n fun handlers mem =>
        registered handlers (by simp [Hub.hearDown, mem])
      simp only [Hub.hearDown, noted_self, handedTo_append, before,
        Client.handedTo_callsOf _ carried, here, List.flatMap_append]
    · simp only [Hub.hearDown, noted_of_ne same] at registered ⊢
      exact h.handed b listener n registered

theorem step_called (step : Step w w') (h : w.Called) : w'.Called := by
  cases step with
  | connect a nonce first => exact h.moveClient (.of_eq rfl)
  | client a c act => exact h.moveClient (Client.act_moves act).told
  | update a => exact h.moveClient (w.clients a).moves_update.told
  | server | flush | up => exact ⟨h.deliveries, h.handed⟩
  | datagram endpoint bytes bare =>
    unfold hearBare
    dsimp only
    split <;> exact ⟨h.deliveries, h.handed⟩
  | down k a e sequence bytes own sent carried => exact h.hearDown carried

theorem Run.called {w₀ : Hub} (run : Run w₀ w) (h : w₀.Called) : w.Called := by
  induction run with
  | start => exact h
  | next _ step ih => exact step_called step ih

end

end Hub
end DatagramSession
