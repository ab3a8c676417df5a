/-!
# Kinds of chat commands

The kinds of message that a server and its chat clients agree on.
-/
namespace DatagramSession.Chat

/-- A server's greeting of a new client. -/
def welcomeKind : UInt16 := 0

/-- What a person says to all others. -/
def chatKind : UInt16 := 1

end DatagramSession.Chat
