import DatagramSession.Client.Receiving
import DatagramSession.Server.Routing
import DatagramSession.Server.Upkeep
/-!
# Networks

One server, some clients and the two directions of a lossy link between them.  A datagram that was
sent waits on the link until the next pump, which gives each waiting datagram its fate: it is lost,
held for the next pump, or delivered any number of times.  The fates come from a script that is
repeated; without a script each datagram is delivered once.
-/
namespace DatagramSession

/-- What the link does with one datagram. -/
inductive Fate where
  /-- Lost if there is no copy. -/
  | copies (count : Nat)
  /-- Waits for the next pump. -/
  | hold
  deriving DecidableEq, Repr

/-- A datagram on its way to or from the client at `peer`. -/
structure InFlight where
  peer : Address
  bytes : List UInt8
  deriving DecidableEq, Repr

/-- One direction of the link. -/
structure Link where
  script : List Fate := []
  /-- How many datagrams have had their fate from the script. -/
  used : Nat := 0
  waiting : List InFlight := []

inductive Direction where
  | up
  | down
  deriving DecidableEq, Repr

/-- One datagram that a pump took up, with its fate. -/
structure Passage where
  direction : Direction
  fate : Fate
  datagram : InFlight
  deriving DecidableEq, Repr

/-- How often a datagram was delivered. -/
def Passage.copies (p : Passage) : Nat :=
  match p.fate with
  | .copies count => count
  | .hold => 0

namespace Link

/-- Starts a new script. -/
def rescript (l : Link) (script : List Fate) : Link :=
  { l with script, used := 0 }

/-- The fate of the next datagram. -/
def nextFate (l : Link) : Fate :=
  (l.script[l.used % l.script.length]?).getD (.copies 1)

/-- Gives each datagram its fate; those on hold wait again. -/
def decide : List InFlight → Link → List (Fate × InFlight) × Link
  | [], l => ([], l)
  | d :: rest, l =>
    let fate := l.nextFate
    let waiting := if fate = .hold then l.waiting ++ [d] else l.waiting
    let (fates, l) := decide rest { l with used := l.used + 1, waiting }
    ((fate, d) :: fates, l)

/-- Takes up everything that waits, in reverse if asked to, and decides its fate. -/
def takeUp (l : Link) (reverse : Bool) : List (Fate × InFlight) × Link :=
  decide (if reverse then l.waiting.reverse else l.waiting) { l with waiting := [] }

end Link

/-- A client and where it is. -/
structure Station where
  address : Address
  client : Client

structure Network where
  serverAddress : Address
  server : Server
  stations : List Station
  up : Link := {}
  down : Link := {}
  ticks : Nat := 0
  /-- What the application's handlers on all sides were given, in the order of the calls. -/
  deliveries : List Delivery := []
  /-- What the pumps took up. -/
  passages : List Passage := []

namespace Network

/-- The sequence number in a datagram's header. -/
def sequenceOf (bytes : List UInt8) : Nat :=
  match Wire.decode? bytes with
  | some p => p.header.sequence.toNat
  | none => 0

/-- Datagrams to one address go by sequence number, those to different addresses by address. -/
def inOrder (ds : List Datagram) : List Datagram :=
  let keyed := ds.map fun d => (sequenceOf d.bytes, d)
  (keyed.mergeSort fun a b => if a.2.target = b.2.target then a.1 ≤ b.1
    else a.2.target.le b.2.target).map Prod.snd

/-- Puts what the server's handlers were given into the common record. -/
def collectServer (n : Network) : Network :=
  let (ds, server) := n.server.takeDeliveries
  { n with server, deliveries := n.deliveries ++ ds }

/-- Lets the server act. -/
def onServer {α : Type} (n : Network) (f : Server → α × Server) : α × Network :=
  let (a, server) := f n.server
  (a, { n with server }.collectServer)

/-- Lets one client act. -/
def onClient {α : Type} (n : Network) (index : Nat) (f : Client → α × Client) :
    Option α × Network :=
  match n.stations[index]? with
  | none => (none, n)
  | some station =>
    let (a, client) := f station.client
    let (ds, client) := client.takeDeliveries
    (some a, { n with
      stations := n.stations.set index { station with client }
      deliveries := n.deliveries ++ ds })

/-- All clocks move on. -/
def elapse (n : Network) (d : Duration) : Network :=
  { n with
    server := n.server.elapse d
    stations := n.stations.map fun s => { s with client := s.client.elapse d } }

/-- Moves what the clients have sent to the link. -/
def gatherUp (n : Network) : Network :=
  let sent := n.stations.flatMap fun s => (inOrder s.client.transport.sent).map fun d =>
    InFlight.mk s.address d.bytes
  { n with
    up := { n.up with waiting := n.up.waiting ++ sent }
    stations := n.stations.map fun s =>
      { s with client := { s.client with transport := s.client.transport.takeSent.2 } } }

/-- Moves what the server has sent to the link. -/
def gatherDown (n : Network) : Network :=
  let sent := (inOrder n.server.transport.sent).map fun d => InFlight.mk d.target d.bytes
  { n with
    down := { n.down with waiting := n.down.waiting ++ sent }
    server := { n.server with transport := n.server.transport.takeSent.2 } }

/-- Delivers one copy of a datagram. -/
def deliverCopy (direction : Direction) (d : InFlight) (n : Network) : Network :=
  match direction with
  | .up => (n.onServer fun s => s.route d.peer d.bytes).2
  | .down =>
    match n.stations.findIdx? fun s => s.address = d.peer with
    | some index => (n.onClient index fun c => ((), c.takeDatagram n.serverAddress d.bytes)).2
    | none => n

/-- Records the passage of a datagram and delivers its copies. -/
def pass (direction : Direction) (n : Network) (taken : Fate × InFlight) : Network :=
  let n := { n with passages := n.passages ++ [⟨direction, taken.1, taken.2⟩] }
  match taken.1 with
  | .copies count => count.repeat (deliverCopy direction taken.2) n
  | .hold => n

def pumpUp (n : Network) (reverse : Bool) : Network :=
  let (taken, up) := n.up.takeUp reverse
  taken.foldl (pass .up) { n with up }

def pumpDown (n : Network) (reverse : Bool) : Network :=
  let (taken, down) := n.down.takeUp reverse
  taken.foldl (pass .down) { n with down }

/-- Moves everything that was sent to the link, then takes up what waits there, first towards the
server.  What is sent meanwhile waits for the next pump. -/
def pump (n : Network) (reverse : Bool) : Network :=
  (n.gatherUp.gatherDown.pumpUp reverse).pumpDown reverse

/-- One client's part of a tick: it queues a command, if there is one, and updates. -/
def tickClient (command : Option Command) (acc : List (Nat × PacketError) × Network) (index : Nat) :
    List (Nat × PacketError) × Network :=
  let (errors, n) := acc
  let act (c : Client) : Except PacketError Nat × Client :=
    (match command with
      | some command => (c.enqueue command).2
      | none => c).update
  match n.onClient index act with
  | (some (.error e), n) => (errors ++ [(index, e)], n)
  | (_, n) => (errors, n)

/-- One tick of all parties, with a sweep at every `sweepEvery`-th; gives the clients' errors. -/
def tick (n : Network) (step : Duration) (sweepEvery : Nat) (command : Option Command) :
    List (Nat × PacketError) × Network :=
  let n := { n with ticks := n.ticks + 1 }.elapse step
  let (errors, n) := (List.range n.stations.length).foldl (tickClient command) ([], n)
  let n := (n.onServer Server.flush).2
  let n := if n.ticks % sweepEvery = 0 then (n.onServer Server.sweep).2 else n
  (errors, n.pump false)

/-- Several ticks in a row. -/
def tickTimes (step : Duration) (sweepEvery : Nat) (command : Option Command) :
    Nat → Network → List (Nat × PacketError) × Network
  | 0, n => ([], n)
  | count + 1, n =>
    let (errors, n) := n.tick step sweepEvery command
    let (more, n) := tickTimes step sweepEvery command count n
    (errors ++ more, n)

/-- The recorded passages in one direction. -/
def passed (n : Network) (direction : Direction) : List Passage :=
  n.passages.filter (·.direction = direction)

/-- How many datagrams the pumps took up in one direction. -/
def taken (n : Network) (direction : Direction) : Nat :=
  (n.passed direction).length

/-- How many copies the pumps delivered in one direction. -/
def delivered (n : Network) (direction : Direction) : Nat :=
  (n.passed direction).foldl (fun total p => total + p.copies) 0

/-- Starts new records. -/
def forget (n : Network) : Network :=
  { n with deliveries := [], passages := [] }

end Network
end DatagramSession
