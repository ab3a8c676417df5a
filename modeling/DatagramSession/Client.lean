import DatagramSession.Config
import DatagramSession.Delivery
import DatagramSession.Inbound
import DatagramSession.Peers
import DatagramSession.Transport
/-!
# Clients

A client registers with one server and then exchanges envelopes with it.  It has an outbound state
exactly while it is registered.  `Client.connect` starts a session, `Client.update` does the work of
one tick, `Client.disconnect` and several kinds of trouble end the session; `closeReason` tells
which.
-/
namespace DatagramSession

inductive ClientState where
  | disconnected
  /-- Sends hellos until the server answers. -/
  | registering
  /-- Has an id. -/
  | registered
  /-- The server's services are ready. -/
  | ready
  deriving DecidableEq, Repr

def ClientState.isRegistered : ClientState → Bool
  | registered | ready => true
  | disconnected | registering => false

/-- Who is handed the commands of the server. -/
inductive ClientHandler where
  /-- Applies acknowledgements to the outbound state. -/
  | peer
  | application (handler : AppHandler)
  deriving DecidableEq, Repr

structure Client where
  config : ClientConfig
  server : Address
  state : ClientState := .disconnected
  id : Option ConnectionId := none
  nonce : Nonce := 0
  lastRegistration : Option Instant := none
  lastReceived : Instant := 0
  lastSent : Instant := 0
  /-- The newest control frame that was applied and confirmed. -/
  controlWatermark : Option OrderNumber := none
  closeReason : Option String := none
  outbound : PeerSlot := none
  inbound : Inbound := {}
  /-- The sequence number of the next packet. -/
  sequence : UInt32 := 0
  handlers : List ClientHandler := [.peer]
  /-- The names under which the application has added handlers. -/
  introduced : List String := []
  transport : Transport := {}
  deliveries : List Delivery := []
  now : Instant := 0

namespace Client

def addHandler (c : Client) (h : ClientHandler) : Client :=
  { c with handlers := c.handlers ++ [h] }

/-- Takes out every registration of a handler and says whether there was one. -/
def removeHandler (c : Client) (h : ClientHandler) : Bool × Client :=
  (c.handlers.contains h, { c with handlers := c.handlers.filter (· ≠ h) })

/-- Adds a new handler of the application under a name. -/
def introduce (c : Client) (name : String) : Client :=
  { c with introduced := c.introduced ++ [name] }.addHandler
    (.application ⟨name, c.introduced.count name⟩)

/-- Takes out the handler that was the first to be added under a name; later ones of that name are
out of reach. -/
def dismiss (c : Client) (name : String) : Bool × Client :=
  c.removeHandler (.application ⟨name, 0⟩)

def elapse (c : Client) (d : Duration) : Client :=
  { c with now := c.now + d }

def deliver (c : Client) (d : Delivery) : Client :=
  { c with deliveries := c.deliveries ++ [d] }

/-- The application takes what its handlers were given. -/
def takeDeliveries (c : Client) : List Delivery × Client :=
  (c.deliveries, { c with deliveries := [] })

/-- The number of batches that the server has not confirmed. -/
def unconfirmed (c : Client) : Nat :=
  PeerSlot.unconfirmed c.outbound

/-- Queues a command for the server; it is dropped unless the client is registered. -/
def enqueue (c : Client) (command : Command) : Bool × Client :=
  let (taken, outbound) := PeerSlot.enqueue command c.outbound
  (taken, { c with outbound })

/-- Sends a body under the next sequence number, which is used up even if that fails. -/
def send (c : Client) (body : Body) : Except PacketError Nat × Client :=
  let (result, transport) := c.transport.send c.server (.numbered c.sequence body)
  (result, { c with transport, sequence := c.sequence + 1 })

def sendHello (c : Client) : Except PacketError Nat × Client :=
  c.send (.register { nonce := c.nonce, channel := 0, game := c.config.game, version :=
    c.config.version })

/-- Ends the session, unless it is over already. -/
def close (c : Client) (reason : String) : Client :=
  if c.state = .disconnected then c
  else { c with state := .disconnected, closeReason := some reason, outbound := none }

/-- A session with the given nonce that has just begun. -/
def restarted (c : Client) (nonce : Nonce) : Client :=
  { c with
    state := .registering, id := none, nonce
    lastRegistration := some c.now, lastReceived := c.now, lastSent := c.now
    controlWatermark := none, closeReason := none, outbound := none, inbound := {} }

/-- Starts a session. -/
def connect (c : Client) (nonce : Nonce) : Except PacketError Nat × Client :=
  (c.restarted nonce).sendHello

/-- Ends the session and tells the server. -/
def disconnect (c : Client) : Except PacketError Nat × Client :=
  if c.state = .disconnected then (.ok 0, c)
  else
    let (result, c) := c.send .disconnect
    (result, c.close "Client disconnected")

/-! ## Ticks -/

/-- Nothing was heard of the server for longer than the timeout. -/
def isLost (c : Client) : Bool :=
  c.config.connectionTimeout < c.now - c.lastReceived

/-- It is time to say hello again. -/
def isRetryDue (c : Client) : Bool :=
  c.state = .registering && c.lastRegistration.all fun last =>
    c.config.registrationRetry ≤ c.now - last

/-- No envelope was sent for half the timeout. -/
def isIdle (c : Client) : Bool :=
  c.config.connectionTimeout / 2 ≤ c.now - c.lastSent

/-- Says hello again if it is time. -/
def retry (c : Client) : Except PacketError Nat × Client :=
  if c.isRetryDue then { c with lastRegistration := some c.now }.sendHello else (.ok 0, c)

/-- Sends an envelope.  If it is too large the session is over. -/
def sendEnvelope (c : Client) (e : Envelope) : Except PacketError Nat × Client :=
  match c.send (.envelope e) with
  | (.ok _, c) => (.ok 1, { c with lastSent := c.now })
  | (.error (.tooLarge size), c) =>
    (.error (.tooLarge size),
      (c.send .disconnect).2.close "Outgoing history exceeds the packet size limit")
  | (.error e, c) => (.error e, c)

/-- Sends the envelope that is due and counts it. -/
def flush (c : Client) : Except PacketError Nat × Client :=
  if c.state.isRegistered then
    let slot := if c.isIdle then (PeerSlot.keepAlive c.outbound).2 else c.outbound
    let (e?, outbound) := PeerSlot.flush slot
    match e? with
    | some e => { c with outbound }.sendEnvelope e
    | none => (.ok 0, { c with outbound })
  else (.ok 0, c)

/-- Does the work of one tick and counts the envelopes that were sent. -/
def update (c : Client) : Except PacketError Nat × Client :=
  if c.state = .disconnected then (.ok 0, c)
  else if c.isLost then (.ok 0, c.close "Server connection lost")
  else
    match c.retry with
    | (.error e, c) => (.error e, c)
    | (.ok _, c) => c.flush

end Client
end DatagramSession
