import DatagramSession.Inbound
import DatagramSession.Table
/-!
# Audiences that change while they listen

An audience is a list of listeners, in which a listener may stand several times, and a record of
what they heard.  Plain listeners hear everything.  Two other manners of listener hear guaranteed
commands only, and change the audience on the first one that they ever hear: one brings in a
companion, the other leaves.  A companion is a listener of its own, even if another one goes by the
same name, and it never leaves: names reach registered listeners only.
-/
namespace DatagramSession

/-- What a listener hears, and what it does besides recording. -/
inductive Manner where
  | plain
  /-- Brings in a companion when it first hears a guaranteed command. -/
  | spawn
  /-- Leaves the audience when it first hears a guaranteed command. -/
  | quit
  deriving DecidableEq, Repr

/-- One who hears commands. -/
inductive Listener where
  /-- The listener that was registered under a name. -/
  | registered (name : String)
  /-- The plain listener that the one registered under a name brought in. -/
  | companion (name : String)
  deriving DecidableEq, Repr

/-- The name in the record; a companion is called after the one who brought it in, with a plus
sign. -/
def Listener.name : Listener → String
  | registered name => name
  | companion name => name ++ "+"

/-- A name that was registered. -/
structure Member where
  manner : Manner
  /-- It has heard a guaranteed command. -/
  stirred : Bool := false
  deriving DecidableEq, Repr

/-- One entry of the record. -/
inductive Heard (κ : Type) where
  | command (name : String) (source : κ) (channel : Reliability) (command : Command)
  | acknowledged (source : κ) (ack : Command)
  deriving DecidableEq, Repr

/-- Listeners that hear the commands of peers of type `κ`. -/
structure Audience (κ : Type) where
  /-- Every name that was ever registered. -/
  known : Table String Member := {}
  /-- The registrations, oldest first. -/
  present : List Listener := []
  heard : List (Heard κ) := []

namespace Audience

variable {κ : Type}

/-- Registers a listener once more, or a new one if the name is not known. -/
def register (a : Audience κ) (name : String) (manner : Manner) : Audience κ :=
  { a with
    known := if a.known.contains name then a.known else a.known.insert name { manner }
    present := a.present ++ [.registered name] }

/-- Takes out every registration of the listener with this name and says whether there was one. -/
def unregister (a : Audience κ) (name : String) : Bool × Audience κ :=
  (a.present.contains (.registered name),
    { a with present := a.present.filter (· ≠ .registered name) })

/-- What a listener does after it has recorded a guaranteed command. -/
def stir (a : Audience κ) : Listener → Audience κ
  | .companion _ => a
  | .registered name =>
    match a.known.find? name with
    | some ⟨manner, false⟩ =>
      let a := { a with known := a.known.insert name ⟨manner, true⟩ }
      match manner with
      | .plain => a
      | .spawn => { a with present := a.present ++ [.companion name] }
      | .quit => (a.unregister name).2
    | _ => a

/-- Unreliable commands reach plain listeners only. -/
def hearsUnreliable (a : Audience κ) : Listener → Bool
  | .companion _ => true
  | .registered name => (a.known.find? name).any fun l => l.manner = .plain

def record (a : Audience κ) (entry : Heard κ) : Audience κ :=
  { a with heard := a.heard ++ [entry] }

/-- Starts a new record. -/
def forget (a : Audience κ) : Audience κ :=
  { a with heard := [] }

/-- The audience as the receiver of the envelopes of one peer. -/
def receiver (source : κ) : Receiver Listener (Audience κ) where
  handlers := present
  perform
    | .guaranteed l c, a => (a.record (.command l.name source .guaranteed c)).stir l
    | .acknowledge ack, a => a.record (.acknowledged source ack)
    | .unreliable l c, a =>
      if a.hearsUnreliable l then a.record (.command l.name source .unreliable c) else a

end Audience

/-- An audience with the receiving state of each peer that it has heard of. -/
structure Hall (κ : Type) where
  audience : Audience κ := {}
  inbounds : Table κ Inbound := {}

namespace Hall

variable {κ : Type} [DecidableEq κ]

def inbound (h : Hall κ) (source : κ) : Inbound :=
  (h.inbounds.find? source).getD {}

/-- Processes an envelope of one peer. -/
def receive (h : Hall κ) (source : κ) (e : Envelope) : EnvelopeOutcome × Hall κ :=
  let (outcome, inbound, audience) :=
    (Audience.receiver source).receive (h.inbound source) e h.audience
  (outcome, { audience, inbounds := h.inbounds.insert source inbound })

/-- Forgets what was received from one peer. -/
def reset (h : Hall κ) (source : κ) : Hall κ :=
  { h with inbounds := h.inbounds.erase source }

end Hall
end DatagramSession
