import DatagramSession.Sequence
/-!
# Commands

What two parties tell each other: application messages, which are sent guaranteed or unreliably, and
acknowledgements, which are always unreliable.
-/
namespace DatagramSession

/-- How hard the session tries to get a command across. -/
inductive Reliability where
  | guaranteed
  | unreliable
  deriving DecidableEq, Repr

/-- One command of an envelope. -/
inductive Command where
  /-- Every envelope up to and including `confirmed` has been processed. -/
  | ack (confirmed : OrderNumber)
  /-- An application message; `kind` is for the application to interpret. -/
  | message (reliability : Reliability) (kind : UInt16) (payload : List UInt8)
  deriving DecidableEq, Repr

namespace Command

/-- Acknowledgements are unreliable; a message carries its own reliability. -/
def reliability : Command → Reliability
  | ack _ => .unreliable
  | message r _ _ => r

def isGuaranteed (c : Command) : Bool :=
  c.reliability = .guaranteed

/-- The order number that an acknowledgement confirms. -/
def confirmed? : Command → Option OrderNumber
  | ack n => some n
  | message .. => none

/-- The application kind of a message. -/
def kind? : Command → Option UInt16
  | ack _ => none
  | message _ k _ => some k

/-- The bytes of a message; an acknowledgement has none. -/
def payload : Command → List UInt8
  | ack _ => []
  | message _ _ p => p

@[simp] theorem isGuaranteed_ack (n : OrderNumber) : (ack n).isGuaranteed = false := rfl

theorem confirmed?_of_isGuaranteed {c : Command} (h : c.isGuaranteed = true) :
    c.confirmed? = none := by
  cases c with
  | ack => cases h
  | message => rfl

end Command
end DatagramSession
