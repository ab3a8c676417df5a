import DatagramSession.Audience
import DatagramSession.Chat
import DatagramSession.Config.Reading
import DatagramSession.Config.Tick
import DatagramSession.Decimal
import DatagramSession.Network
import DatagramSession.Transport.Lossy
import DatagramSession.Wire.Size
import DatagramSession.Proofs.Position
import DatagramSession.Proofs.Circle
import DatagramSession.Proofs.Agreement
import DatagramSession.Proofs.OneWay
import DatagramSession.Proofs.Party
import DatagramSession.Proofs.RoundTrip
import DatagramSession.Proofs.Enrolment
import DatagramSession.Proofs.TwoWay
import DatagramSession.Proofs.Ownership
import DatagramSession.Proofs.Exchange
import DatagramSession.Proofs.Clients
import DatagramSession.Proofs.Phases
import DatagramSession.Proofs.Lobbies
import DatagramSession.Proofs.Servers
import DatagramSession.Proofs.Sessions
import DatagramSession.Proofs.Reconnects
import DatagramSession.Proofs.Placement
import DatagramSession.Proofs.Readback
import DatagramSession.Proofs.Confirmations
import DatagramSession.Proofs.Oversized
import DatagramSession.Proofs.Changes
import DatagramSession.Proofs.Introductions
import DatagramSession.Proofs.Identity
import DatagramSession.Proofs.Bookkeeping
import DatagramSession.Proofs.Tokens
import DatagramSession.Proofs.Chronicle
import DatagramSession.Proofs.Crowd
import DatagramSession.Proofs.Replays
import DatagramSession.Proofs.Repacking
import DatagramSession.Proofs.Capacity
import DatagramSession.Proofs.Tending
import DatagramSession.Proofs.Replies
import DatagramSession.Proofs.Transitions
import DatagramSession.Proofs.Heads
import DatagramSession.Proofs.Handshake
import DatagramSession.Proofs.Dismissals
import DatagramSession.Proofs.Welcomes
import DatagramSession.Proofs.Meetings
import DatagramSession.Proofs.Recovery
import DatagramSession.Proofs.Unreliable
import DatagramSession.Proofs.Spans
import DatagramSession.Proofs.Attending
import DatagramSession.Proofs.Vigils
import DatagramSession.Proofs.Backlogs
import DatagramSession.Proofs.Housing
import DatagramSession.Proofs.Manners
import DatagramSession.Proofs.Hubs
import DatagramSession.Proofs.Ledgers
import DatagramSession.Proofs.Fanout
import DatagramSession.Proofs.Conservation
import DatagramSession.Proofs.Cumulative
import DatagramSession.Proofs.Isolation
import DatagramSession.Proofs.Turnover
import DatagramSession.Proofs.Intake
import DatagramSession.Proofs.Confirmable
import DatagramSession.Proofs.Answering
import DatagramSession.Proofs.Refusals
import DatagramSession.Proofs.Gathering
import DatagramSession.Proofs.Partings
import DatagramSession.Proofs.Promptness
import DatagramSession.Proofs.Sweeps
import DatagramSession.Proofs.Flushes
