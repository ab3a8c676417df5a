import DatagramSession.Connection
/-!
# The registry

The registry turns hellos into connections.  A hello binds one endpoint to one channel of the draft
that its nonce names; the hello that binds the last channel completes the draft.  Hellos from one
endpoint are ordered by tokens, and one that is not newer than the last is ignored.  Tokens are kept
only for endpoints that a live connection or a draft holds, so that an endpoint which nothing holds
can start again.
-/
namespace DatagramSession

/-- Drafts, live connections and the ways to find them. -/
structure Registry where
  game : String
  version : UInt32
  /-- The number of channels of each connection, at least one. -/
  channels : Nat
  maxClients : Nat
  pending : Table Nonce Draft := {}
  connections : Table ConnectionId Connection := {}
  byEndpoint : Table Address ConnectionId := {}
  byNonce : Table Nonce ConnectionId := {}
  /-- The token of the last hello from each endpoint that is held. -/
  tokens : Table Address OrderNumber := {}
  nextId : ConnectionId := 1
  deriving DecidableEq

/-- What became of a hello that is not against the protocol. -/
inductive RegistrationOutcome where
  /-- The same or a later hello from this endpoint was processed before. -/
  | stale
  | pending
  /-- The endpoint belongs to a connection with this nonce already. -/
  | duplicate (id : ConnectionId)
  | rejected (reason : String)
  | completed (id : ConnectionId)
  deriving DecidableEq, Repr

namespace Registry

/-- An empty registry. -/
def empty (game : String) (version : UInt32) (channels maxClients : Nat) : Registry :=
  { game, version, channels := max channels 1, maxClients }

def connection? (r : Registry) (id : ConnectionId) : Option Connection :=
  r.connections.find? id

def connectionAt? (r : Registry) (endpoint : Address) : Option Connection :=
  (r.byEndpoint.find? endpoint).bind r.connection?

def connectionOf? (r : Registry) (nonce : Nonce) : Option Connection :=
  (r.byNonce.find? nonce).bind r.connection?

/-- The ids of the live connections. -/
def ids (r : Registry) : List ConnectionId :=
  r.connections.keys

/-- Changes a live connection. -/
def modify (r : Registry) (id : ConnectionId) (f : Connection → Connection) : Registry :=
  { r with connections := r.connections.modify id f }

/-- A live connection or a draft has this endpoint. -/
def holds (r : Registry) (endpoint : Address) : Bool :=
  r.byEndpoint.contains endpoint || r.pending.values.any (·.hasEndpoint endpoint)

/-- Forgets the token of an endpoint that nothing holds. -/
def releaseToken (r : Registry) (endpoint : Address) : Registry :=
  if r.holds endpoint then r else { r with tokens := r.tokens.erase endpoint }

def releaseTokens (r : Registry) (endpoints : List Address) : Registry :=
  endpoints.foldl releaseToken r

/-- A later hello from this endpoint, or this very one, was processed before. -/
def isStale (r : Registry) (endpoint : Address) (token : OrderNumber) : Bool :=
  !token.isNewer (r.tokens.find? endpoint)

/-- The error of a hello with the nonce of a live connection that comes from a foreign endpoint. -/
def takenChannel (r : Registry) (c : Connection) (channel : UInt8) (endpoint : Address) :
    RegistrationError :=
  match c.endpoints[channel.toNat]? with
  | some existing => .channelConflict channel existing endpoint
  | none => .channelOutOfRange channel r.channels

/-- What a client of another game or version is told. -/
def mismatch (r : Registry) (hello : Hello) : String :=
  "Server client mismatch, server: " ++ r.game ++ " v" ++ toString r.version ++ "  client: " ++
    hello.game ++ " v" ++ toString hello.version

/-- Makes a complete draft a live connection under the next id; ids count up and skip zero. -/
def enrol (r : Registry) (nonce : Nonce) (address : Address) (others : List Address)
    (now : Instant) :
    RegistrationOutcome × Registry :=
  let id := r.nextId
  let c := Connection.fresh id nonce address others now
  (.completed id,
    { r with
      nextId := if id + 1 = 0 then 1 else id + 1
      byEndpoint := c.endpoints.foldl (fun t endpoint => t.insert endpoint id) r.byEndpoint
      byNonce := r.byNonce.insert nonce id
      connections := r.connections.insert id c })

/-- Continues with a draft that the hello has just been bound to and that is out of the pending
table. -/
def advance (r : Registry) (draft : Draft) (hello : Hello) (now : Instant) :
    RegistrationOutcome × Registry :=
  if hello.game ≠ r.game || hello.version ≠ r.version then
    (.rejected (r.mismatch hello), r.releaseTokens draft.endpoints)
  else
    match draft.complete? with
    | none => (.pending, { r with pending := r.pending.insert hello.nonce draft })
    | some (address, others) =>
      if r.maxClients ≤ r.connections.size then
        (.rejected "Server full", r.releaseTokens draft.endpoints)
      else r.enrol hello.nonce address others now

/-- Binds a hello to its draft, which a violation discards. -/
def bind (r : Registry) (endpoint : Address) (hello : Hello) (now : Instant) :
    Except RegistrationError RegistrationOutcome × Registry :=
  let draft := (r.pending.find? hello.nonce).getD (.empty hello.nonce r.channels now)
  let r := { r with pending := r.pending.erase hello.nonce }
  match draft.bind hello.channel endpoint with
  | .error e => (.error e, r.releaseTokens (draft.endpoints ++ [endpoint]))
  | .ok draft =>
    let (outcome, r) := r.advance draft hello now
    (.ok outcome, r)

/-- Processes a hello that came from `endpoint` with a token. -/
def register (r : Registry) (endpoint : Address) (token : OrderNumber) (hello : Hello)
    (now : Instant) :
    Except RegistrationError RegistrationOutcome × Registry :=
  if r.isStale endpoint token then (.ok .stale, r)
  else
    let r := { r with tokens := r.tokens.insert endpoint token }
    match r.connectionAt? endpoint with
    | some c =>
      (if c.nonce = hello.nonce then .ok (.duplicate c.id) else .error (.endpointInUse endpoint), r)
    | none =>
      match r.connectionOf? hello.nonce with
      | some c => (.error (r.takenChannel c hello.channel endpoint), r.releaseToken endpoint)
      | none => r.bind endpoint hello now

/-- The first two things that a new client is told. -/
def welcome (r : Registry) (id : ConnectionId) : Registry :=
  r.modify id fun c => (c.tell (.registered id)).tell .servicesReady

/-- Takes out a live connection and everything that leads to it; gives back the connection, now
closed. -/
def remove (r : Registry) (id : ConnectionId) : Option Connection × Registry :=
  match r.connection? id with
  | none => (none, r)
  | some c =>
    (some c.markClosed,
      { r with
        connections := r.connections.erase id
        byEndpoint := c.endpoints.foldl Table.erase r.byEndpoint
        tokens := c.endpoints.foldl Table.erase r.tokens
        byNonce := r.byNonce.erase c.nonce })

/-- Discards a draft. -/
def discard (r : Registry) (draft : Draft) : Registry :=
  { r with pending := r.pending.erase draft.nonce }.releaseTokens draft.endpoints

/-- Discards the drafts that are older than the timeout and counts them. -/
def expirePending (r : Registry) (now : Instant) (timeout : Duration) : Nat × Registry :=
  let expired := r.pending.values.filter (·.isOlderThan timeout now)
  (expired.length, expired.foldl discard r)

end Registry
end DatagramSession
