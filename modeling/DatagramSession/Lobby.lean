import DatagramSession.Chat.Kind
import DatagramSession.Peers
import DatagramSession.Registry
import DatagramSession.Text.Utf8
/-!
# The lobby

The registry together with all that must hear of it when a connection comes or goes: the outbound
states of the peers, the queue of events for the host, a greeter, and a record.  Watchers are told
in the order of their registration, of a new connection before it is told anything, and of a closed
one after it has left the registry.
-/
namespace DatagramSession

/-- Why a connection ended. -/
inductive DisconnectReason where
  | graceful
  /-- Nothing was heard of the client within the liveness timeout. -/
  | timeout
  | kicked
  /-- What is to be sent to the client outgrew a datagram. -/
  | oversized
  deriving DecidableEq, Repr

def DisconnectReason.text : DisconnectReason → String
  | graceful => "graceful"
  | timeout => "timeout"
  | kicked => "kicked"
  | oversized => "oversized"

/-- The reason with the given text. -/
def DisconnectReason.parse? (s : String) : Option DisconnectReason :=
  [graceful, timeout, kicked, oversized].find? (·.text = s)

/-- What a server reports to its host. -/
inductive Event where
  | connected (id : ConnectionId) (address : Address)
  | disconnected (id : ConnectionId) (reason : DisconnectReason)
  | denied (address : Address) (reason : String)
  | violation (address : Address) (message : String)
  deriving DecidableEq, Repr

/-- What a recording watcher saw. -/
inductive Notice where
  | added (id : ConnectionId) (pendingControl : Nat) (closed : Bool)
  | removed (id : ConnectionId) (reason : DisconnectReason) (closed : Bool)
  deriving DecidableEq, Repr

/-- Someone who is told of connections that come and go. -/
inductive Watcher where
  /-- Keeps an outbound state for each live connection. -/
  | peers
  /-- Reports to the host. -/
  | events
  /-- Notes when a client came and sends it a welcome. -/
  | greeter
  | record
  deriving DecidableEq, Repr

structure Lobby where
  registry : Registry
  watchers : List Watcher
  peers : PeerMap ConnectionId := {}
  events : List Event := []
  notices : List Notice := []
  deriving DecidableEq

namespace Lobby

def report (l : Lobby) (e : Event) : Lobby :=
  { l with events := l.events ++ [e] }

/-- The host takes the events. -/
def takeEvents (l : Lobby) : List Event × Lobby :=
  (l.events, { l with events := [] })

def takeNotices (l : Lobby) : List Notice × Lobby :=
  (l.notices, { l with notices := [] })

/-- The attribute under which the greeter notes when a client came. -/
def joinedAt : String := "joined_at"

def greeting (id : ConnectionId) : Command :=
  .message .guaranteed Chat.welcomeKind (Utf8.encode ("Welcome, client " ++ toString id))

/-- One watcher hears of a new connection. -/
def announceTo (c : Connection) (now : Instant) (l : Lobby) : Watcher → Lobby
  | .peers => { l with peers := (l.peers.add c.id).2 }
  | .events => l.report (.connected c.id c.address)
  | .greeter =>
    { l with
      registry := l.registry.modify c.id (·.setAttribute joinedAt (.instant now))
      peers := (l.peers.enqueue c.id (greeting c.id)).2 }
  | .record => { l with notices := l.notices ++ [.added c.id c.pendingControl c.closed] }

def announce (l : Lobby) (c : Connection) (now : Instant) : Lobby :=
  l.watchers.foldl (announceTo c now) l

/-- One watcher hears of a closed connection. -/
def farewellTo (c : Connection) (reason : DisconnectReason) (l : Lobby) : Watcher → Lobby
  | .peers => { l with peers := (l.peers.remove c.id).2 }
  | .events => l.report (.disconnected c.id reason)
  | .greeter => l
  | .record => { l with notices := l.notices ++ [.removed c.id reason c.closed] }

def farewell (l : Lobby) (c : Connection) (reason : DisconnectReason) : Lobby :=
  l.watchers.foldl (farewellTo c reason) l

/-- The watchers hear of a connection that the registry has just enrolled; then it is welcomed. -/
def introduce (l : Lobby) (id : ConnectionId) (now : Instant) : Lobby :=
  match l.registry.connection? id with
  | some c =>
    let l := l.announce c now
    { l with registry := l.registry.welcome id }
  | none => l

/-- Processes a hello. -/
def register (l : Lobby) (endpoint : Address) (token : OrderNumber) (hello : Hello)
    (now : Instant) :
    Except RegistrationError RegistrationOutcome × Lobby :=
  let (result, registry) := l.registry.register endpoint token hello now
  let l := { l with registry }
  match result with
  | .ok (.completed id) => (result, l.introduce id now)
  | _ => (result, l)

/-- Closes a connection and says whether it was live. -/
def close (l : Lobby) (id : ConnectionId) (reason : DisconnectReason) : Bool × Lobby :=
  match l.registry.remove id with
  | (some c, registry) => (true, { l with registry }.farewell c reason)
  | (none, _) => (false, l)

/-- Discards drafts that are older than the timeout and counts them. -/
def expirePending (l : Lobby) (now : Instant) (timeout : Duration) : Nat × Lobby :=
  let (count, registry) := l.registry.expirePending now timeout
  (count, { l with registry })

/-- Changes a live connection. -/
def modify (l : Lobby) (id : ConnectionId) (f : Connection → Connection) : Lobby :=
  { l with registry := l.registry.modify id f }

end Lobby
end DatagramSession
