import DatagramSession.Server
/-!
# Taking in datagrams

A datagram that is no valid packet changes nothing.  A hello goes to the lobby; everything else must
come from the endpoint of a live connection, which counts as a sign of life, and concerns that
connection alone.
-/
namespace DatagramSession.Server

/-- Reports a refusal to the host and tells the client once, for there is no connection to repeat it
from. -/
def refuse (s : Server) (endpoint : Address) (reason : String) : Server :=
  let s := { s with lobby := s.lobby.report (.denied endpoint reason) }
  (s.send endpoint (.numbered 0 (.control (.numbered 0 (.kick reason) false)))).2

def routeHello (s : Server) (endpoint : Address) (token : OrderNumber) (hello : Hello) :
    Routed × Server :=
  let (result, lobby) := s.lobby.register endpoint token hello s.now
  let s := { s with lobby }
  match result with
  | .ok (.completed id) => (.registered id, s)
  | .ok .pending => (.pending, s)
  | .ok .stale => (.ignored, s)
  | .ok (.duplicate id) => (.ignored, { s with lobby := s.lobby.modify id (·.touch s.now) })
  | .ok (.rejected reason) => (.rejected, s.refuse endpoint reason)
  | .error e => (.violation, { s with lobby := s.lobby.report (.violation endpoint e.message) })

/-- A control frame of a client counts only as a confirmation.  A confirmed kick ends the
connection. -/
def routeControl (s : Server) (c : Connection) (f : ControlFrame) : Routed × Server :=
  let (acceptance, accepted) := c.accept f.order f.confirms
  let s := { s with lobby := s.lobby.modify c.id fun _ => accepted }
  match acceptance with
  | .stale => (.control false, s)
  | .accepted (some (.kick _)) => (.closed .kicked, (s.close c.id .kicked).2)
  | .accepted _ => (.control true, s)

def routeEnvelope (s : Server) (c : Connection) (e : Envelope) : Routed × Server :=
  let (outcome, inbound, s) := (receiver c.id).receive c.inbound e s
  (.envelope outcome, { s with lobby := s.lobby.modify c.id fun c => { c with inbound } })

/-- What the connection at an endpoint makes of a packet that is no hello. -/
def routeConnected (s : Server) (c : Connection) : Body → Routed × Server
  | .control f => s.routeControl c f
  | .envelope e => s.routeEnvelope c e
  | _ => (.closed .graceful, (s.close c.id .graceful).2)

def routePacket (s : Server) (endpoint : Address) (p : Packet) : Routed × Server :=
  match p.body with
  | .register hello => s.routeHello endpoint p.header.sequence hello
  | body =>
    match s.lobby.registry.connectionAt? endpoint with
    | none => (.unknown, s)
    | some c =>
      { s with lobby := s.lobby.modify c.id (·.touch s.now) }.routeConnected (c.touch s.now) body

/-- Takes in one datagram. -/
def route (s : Server) (endpoint : Address) (bytes : List UInt8) : Routed × Server :=
  match Wire.decode bytes with
  | .error _ => (.malformed, s)
  | .ok p => if p.header.isValid then s.routePacket endpoint p else (.malformed, s)

end DatagramSession.Server
