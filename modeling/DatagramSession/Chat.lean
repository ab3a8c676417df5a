import DatagramSession.Chat.Kind
import DatagramSession.Command
import DatagramSession.Text.Utf8
/-!
# The chat log

What a chat client logs of the commands that reach it: welcomes and chat messages as text, other
guaranteed commands by their kind.  Unreliable commands are not logged.
-/
namespace DatagramSession.Chat

inductive Level where
  | info
  | debug
  deriving DecidableEq, Repr

structure Line where
  level : Level
  text : String
  deriving DecidableEq, Repr

/-- How an unexpected kind is shown. -/
def showKind : Option UInt16 → String
  | some kind => "Some(" ++ toString kind ++ ")"
  | none => "None"

/-- What is logged of a guaranteed command. -/
def guaranteedLine (c : Command) : Line :=
  let text := Utf8.decodeLossy c.payload
  if c.kind? = some welcomeKind then ⟨.info, "Server: " ++ text⟩
  else if c.kind? = some chatKind then ⟨.info, "Chat: " ++ text⟩
  else ⟨.debug, "Unhandled guaranteed command " ++ showKind c.kind?⟩

/-- What is logged of a command that came on one of the two channels. -/
def lines (channel : Reliability) (c : Command) : List Line :=
  match channel with
  | .guaranteed => [guaranteedLine c]
  | .unreliable => []

end DatagramSession.Chat
