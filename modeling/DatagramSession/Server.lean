import DatagramSession.Config
import DatagramSession.Delivery
import DatagramSession.Lobby
import DatagramSession.Transport
import DatagramSession.Wire.Decoding
/-!
# Servers

A server ties the lobby to a transport and to the handlers of commands.  `Server.route` takes in one
datagram, `Server.sweep` repeats control messages and drops silent connections, `Server.flush` sends
each peer its envelope.  The clock is part of the state and moves only when it is told to.
-/
namespace DatagramSession

/-- Who is handed the commands of clients. -/
inductive ServerHandler where
  /-- Applies acknowledgements to the outbound state of their source. -/
  | peers
  /-- Passes application commands on to all other peers. -/
  | relay
  | application (handler : AppHandler)
  deriving DecidableEq, Repr

structure Server where
  config : ServerConfig
  lobby : Lobby
  handlers : List ServerHandler
  /-- The names under which the application has added handlers. -/
  introduced : List String := []
  transport : Transport := {}
  deliveries : List Delivery := []
  now : Instant := 0

/-- What became of a datagram. -/
inductive Routed where
  /-- Not a packet, or one of another protocol or version. -/
  | malformed
  /-- Neither a hello nor from the endpoint of a connection. -/
  | unknown
  | registered (id : ConnectionId)
  | pending
  | rejected
  | violation
  /-- A hello that called for nothing. -/
  | ignored
  | control (accepted : Bool)
  | envelope (outcome : EnvelopeOutcome)
  | closed (reason : DisconnectReason)
  deriving DecidableEq, Repr

/-- What a sweep did. -/
structure SweepReport where
  resent : Nat := 0
  timedOut : Nat := 0
  expired : Nat := 0
  deriving DecidableEq, Repr

namespace Server

/-- A server that nobody has talked to. -/
def start (config : ServerConfig) : Server where
  config
  lobby := {
    registry := .empty config.game config.version config.channels config.maxClients
    watchers := [.peers, .events] }
  handlers := [.peers]

def addHandler (s : Server) (h : ServerHandler) : Server :=
  { s with handlers := s.handlers ++ [h] }

/-- Takes out every registration of a handler and says whether there was one. -/
def removeHandler (s : Server) (h : ServerHandler) : Bool × Server :=
  (s.handlers.contains h, { s with handlers := s.handlers.filter (· ≠ h) })

/-- Adds a new handler of the application under a name. -/
def introduce (s : Server) (name : String) : Server :=
  { s with introduced := s.introduced ++ [name] }.addHandler
    (.application ⟨name, s.introduced.count name⟩)

/-- Takes out the handler that was the first to be added under a name; later ones of that name are
out of reach. -/
def dismiss (s : Server) (name : String) : Bool × Server :=
  s.removeHandler (.application ⟨name, 0⟩)

def addWatcher (s : Server) (w : Watcher) : Server :=
  { s with lobby := { s.lobby with watchers := s.lobby.watchers ++ [w] } }

def elapse (s : Server) (d : Duration) : Server :=
  { s with now := s.now + d }

def connection? (s : Server) (id : ConnectionId) : Option Connection :=
  s.lobby.registry.connection? id

/-- The ids of the live connections. -/
def ids (s : Server) : List ConnectionId :=
  s.lobby.registry.ids

/-! ## Commands -/

def enqueue (s : Server) (id : ConnectionId) (c : Command) : Bool × Server :=
  let (taken, peers) := s.lobby.peers.enqueue id c
  (taken, { s with lobby := { s.lobby with peers } })

def broadcast (s : Server) (c : Command) : Nat × Server :=
  let (count, peers) := s.lobby.peers.broadcast c
  (count, { s with lobby := { s.lobby with peers } })

/-- Queues a command for all peers but its source. -/
def relay (s : Server) (source : ConnectionId) (c : Command) : Server :=
  let others := s.lobby.peers.keys.filter (· ≠ source)
  { s with lobby := { s.lobby with peers := (PeerMap.enqueueAll c others s.lobby.peers).2 } }

def heed (s : Server) (source : ConnectionId) (c : Command) : Server :=
  { s with lobby := { s.lobby with peers := s.lobby.peers.heed source c } }

def deliver (s : Server) (d : Delivery) : Server :=
  { s with deliveries := s.deliveries ++ [d] }

/-- The application takes what its handlers were given. -/
def takeDeliveries (s : Server) : List Delivery × Server :=
  (s.deliveries, { s with deliveries := [] })

/-- The server as the receiver of the envelopes of one connection.  The relay leaves
acknowledgements alone where they belong, among the unreliable commands. -/
def receiver (source : ConnectionId) : Receiver ServerHandler Server where
  handlers := handlers
  perform
    | .guaranteed .peers _, s => s
    | .guaranteed .relay c, s => s.relay source c
    | .guaranteed (.application h) c, s => s.deliver ⟨h.name, some source, .guaranteed, c⟩
    | .acknowledge ack, s => (s.enqueue source ack).2
    | .unreliable .peers c, s => s.heed source c
    | .unreliable .relay c, s => if c.confirmed?.isNone then s.relay source c else s
    | .unreliable (.application h) c, s => s.deliver ⟨h.name, some source, .unreliable, c⟩

/-! ## Sending -/

def send (s : Server) (target : Address) (p : Packet) : Except PacketError Nat × Server :=
  let (result, transport) := s.transport.send target p
  (result, { s with transport })

/-- Sends a body to a connection under the connection's next sequence number. -/
def sendTo (s : Server) (c : Connection) (body : Body) : Except PacketError Nat × Server :=
  { s with lobby := s.lobby.modify c.id fun c => c.nextSequence.2 }.send c.address
    (.numbered c.sequence body)

/-- Tells a connection that it is over; nobody minds if that fails. -/
def sayGoodbye (s : Server) (id : ConnectionId) : Server :=
  match s.connection? id with
  | some c => (s.sendTo c .disconnect).2
  | none => s

def close (s : Server) (id : ConnectionId) (reason : DisconnectReason) : Bool × Server :=
  let (closed, lobby) := s.lobby.close id reason
  (closed, { s with lobby })

/-- Asks a client to go away; the connection ends when the client confirms that, or falls silent. -/
def kick (s : Server) (id : ConnectionId) (reason : String) : Bool × Server :=
  ((s.connection? id).isSome, { s with lobby := s.lobby.modify id (·.kick reason) })

/-- Queues a control message for a connection. -/
def tell (s : Server) (id : ConnectionId) (m : ControlMessage) : Server :=
  { s with lobby := s.lobby.modify id (·.tell m) }

/-- Ends every connection. -/
def shutdown (s : Server) : Server :=
  s.ids.foldl (fun s id => ((s.sayGoodbye id).close id .graceful).2) s

end Server
end DatagramSession
