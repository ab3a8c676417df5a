import DatagramSession.Client
import DatagramSession.Wire.Decoding
/-!
# Taking in datagrams from the server

A client listens to its server only, and only while it is not disconnected.  Every control frame
that asks for it is confirmed, repeated ones too, for an earlier confirmation may be lost; it is
applied only if it is newer than the last one.
-/
namespace DatagramSession.Client

/-- The client as the receiver of its server's envelopes. -/
def receiver : Receiver ClientHandler Client where
  handlers := handlers
  perform
    | .guaranteed .peer _, c => c
    | .guaranteed (.application h) command, c => c.deliver ⟨h.name, none, .guaranteed, command⟩
    | .acknowledge ack, c => (c.enqueue ack).2
    | .unreliable .peer command, c => { c with outbound := PeerSlot.heed command c.outbound }
    | .unreliable (.application h) command, c => c.deliver ⟨h.name, none, .unreliable, command⟩

/-- Does what a control message says, as far as it fits the state. -/
def applyControl (c : Client) : ControlMessage → Client
  | .registered id =>
    if c.state = .registering then
      { c with state := .registered, id := some id, outbound := PeerSlot.connected }
    else c
  | .servicesReady => if c.state = .registered then { c with state := .ready } else c
  | .kick reason => c.close reason
  | .confirm => c

/-- Confirms and applies a control frame. -/
def takeControl (c : Client) (f : ControlFrame) : Client :=
  if f.confirms then
    let c := (c.send (.control (.numbered f.order .confirm true))).2
    if f.order.isNewer c.controlWatermark then
      { c with controlWatermark := some f.order }.applyControl f.message
    else c
  else c.applyControl f.message

def takeEnvelope (c : Client) (e : Envelope) : Client :=
  if c.state.isRegistered then
    let (_, inbound, c) := receiver.receive c.inbound e c
    { c with inbound }
  else c

def takePacket (c : Client) (p : Packet) : Client :=
  match p.body with
  | .control f => c.takeControl f
  | .envelope e => c.takeEnvelope e
  | .disconnect => c.close "Server closed the connection"
  | .register _ => c

/-- Takes in one datagram. -/
def takeDatagram (c : Client) (source : Address) (bytes : List UInt8) : Client :=
  if source ≠ c.server then c
  else
    match Wire.decode bytes with
    | .error _ => c
    | .ok p =>
      if p.header.isValid && c.state ≠ .disconnected then
        { c with lastReceived := c.now }.takePacket p else c

end DatagramSession.Client
