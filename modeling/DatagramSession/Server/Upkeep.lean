import DatagramSession.Server
/-!
# Sweeps and flushes

Both go over all connections in the order in which they are listed and treat each one by itself.  A
sweep closes a connection that has been silent for too long and repeats the control message that
another one has not confirmed; at last it discards drafts that are too old.  A flush sends each peer
the envelope that is due, and a peer that was sent none for half the liveness timeout gets one in
any case.
-/
namespace DatagramSession.Server

/-- Sweeps one connection and adds to the report what was done. -/
def sweepOne (acc : SweepReport × Server) (id : ConnectionId) : SweepReport × Server :=
  let (report, s) := acc
  match s.connection? id with
  | none => acc
  | some c =>
    if c.isTimedOut s.now s.config.livenessTimeout then
      ({ report with timedOut := report.timedOut + 1 }, (s.close id .timeout).2)
    else
      match c.control.head? with
      | none => acc
      | some f =>
        match s.sendTo c (.control f) with
        | (.ok _, s) => ({ report with resent := report.resent + 1 }, s)
        | (.error _, s) => (report, s)

/-- Sweeps the given connections, then the drafts. -/
def sweepIn (s : Server) (order : List ConnectionId) : SweepReport × Server :=
  let (report, s) := order.foldl sweepOne ({}, s)
  let (expired, lobby) := s.lobby.expirePending s.now s.config.livenessTimeout
  ({ report with expired }, { s with lobby })

def sweep (s : Server) : SweepReport × Server :=
  s.sweepIn s.ids

/-- A connection is to be sent an envelope at least this often. -/
def keepAliveInterval (s : Server) : Duration :=
  s.config.livenessTimeout / 2

/-- Asks for an envelope to a connection that was sent none for a while. -/
def keepAliveOne (s : Server) (id : ConnectionId) : Server :=
  match s.connection? id with
  | some c =>
    if c.isIdle s.now s.keepAliveInterval then
      { s with lobby := { s.lobby with peers := (s.lobby.peers.keepAlive id).2 } }
    else s
  | none => s

/-- Sends an envelope.  A peer whose envelope is too large is told goodbye and its connection is
closed. -/
def sendEnvelope (acc : Nat × Server) (mail : ConnectionId × Envelope) : Nat × Server :=
  let (count, s) := acc
  match s.connection? mail.1 with
  | none => acc
  | some c =>
    match s.sendTo c (.envelope mail.2) with
    | (.ok _, s) => (count + 1, { s with lobby := s.lobby.modify mail.1 (·.markSent s.now) })
    | (.error (.tooLarge _), s) => (count, ((s.sayGoodbye mail.1).close mail.1 .oversized).2)
    | (.error _, s) => (count, s)

/-- Flushes with the connections and the peers visited in the given orders. -/
def flushIn (s : Server) (connections peers : List ConnectionId) : Nat × Server :=
  let s := connections.foldl keepAliveOne s
  let (mails, map) := s.lobby.peers.flushEach peers
  mails.foldl sendEnvelope (0, { s with lobby := { s.lobby with peers := map } })

/-- Sends every due envelope and counts those that went out. -/
def flush (s : Server) : Nat × Server :=
  s.flushIn s.ids s.lobby.peers.keys

end DatagramSession.Server
