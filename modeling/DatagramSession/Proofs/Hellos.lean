import DatagramSession.Lobby
/-!
# How a hello is answered

`Registry.Exits` lists every way in which a registry answers a hello, with the conditions under
which it takes that way and all that it leaves behind, tokens included (`exits_register`).  What is
to be known of a hello is read off this list.
-/
namespace DatagramSession.Registry

/-- The draft that a hello is bound to. -/
def draftFor (r : Registry) (hello : Hello) (now : Instant) : Draft :=
  (r.pending.find? hello.nonce).getD (.empty hello.nonce r.channels now)

/-- The registry with the token of a hello noted. -/
def note (r : Registry) (endpoint : Address) (token : OrderNumber) : Registry :=
  { r with tokens := r.tokens.insert endpoint token }

/-- The registry without the draft that a hello is bound to. -/
def withdraw (r : Registry) (hello : Hello) : Registry :=
  { r with pending := r.pending.erase hello.nonce }

/-- Why a hello that could be bound is refused all the same. -/
inductive Refuses (r : Registry) (hello : Hello) (bound : Draft) : String → Prop where
  | mismatch (foreign : hello.game ≠ r.game ∨ hello.version ≠ r.version) :
      Refuses r hello bound (r.mismatch hello)
  | full (matching : hello.game = r.game ∧ hello.version = r.version)
      (complete : (bound.complete?).isSome = true) (crowded : r.maxClients ≤ r.connections.size) :
      Refuses r hello bound "Server full"

/-- All the ways in which a hello is answered. -/
inductive Exits (r : Registry) (endpoint : Address) (token : OrderNumber) (hello : Hello)
    (now : Instant) :
    Except RegistrationError RegistrationOutcome × Registry → Prop where
  | stale (old : r.isStale endpoint token = true) : Exits r endpoint token hello now (.ok .stale, r)
  | duplicate (newer : r.isStale endpoint token = false) (c : Connection)
      (held : r.connectionAt? endpoint = some c) (own : c.nonce = hello.nonce) :
      Exits r endpoint token hello now (.ok (.duplicate c.id), r.note endpoint token)
  | inUse (newer : r.isStale endpoint token = false) (c : Connection)
      (held : r.connectionAt? endpoint = some c) (foreign : c.nonce ≠ hello.nonce) :
      Exits r endpoint token hello now (.error (.endpointInUse endpoint), r.note endpoint token)
  | taken (newer : r.isStale endpoint token = false) (free : r.connectionAt? endpoint = none)
      (c : Connection) (live : r.connectionOf? hello.nonce = some c) :
      Exits r endpoint token hello now
        (.error (r.takenChannel c hello.channel endpoint),
          (r.note endpoint token).releaseToken endpoint)
  | violates (newer : r.isStale endpoint token = false) (free : r.connectionAt? endpoint = none)
      (new : r.connectionOf? hello.nonce = none) (e : RegistrationError)
      (unbound : (r.draftFor hello now).bind hello.channel endpoint = .error e) :
      Exits r endpoint token hello now
        (.error e, ((r.note endpoint token).withdraw hello).releaseTokens
          ((r.draftFor hello now).endpoints ++ [endpoint]))
  | rejected (newer : r.isStale endpoint token = false) (free : r.connectionAt? endpoint = none)
      (new : r.connectionOf? hello.nonce = none) (bound : Draft)
      (binds : (r.draftFor hello now).bind hello.channel endpoint = .ok bound) (reason : String)
      (refuses : r.Refuses hello bound reason) :
      Exits r endpoint token hello now
        (.ok (.rejected reason),
          ((r.note endpoint token).withdraw hello).releaseTokens bound.endpoints)
  | waits (newer : r.isStale endpoint token = false) (free : r.connectionAt? endpoint = none)
      (new : r.connectionOf? hello.nonce = none)
      (matching : hello.game = r.game ∧ hello.version = r.version) (bound : Draft)
      (binds : (r.draftFor hello now).bind hello.channel endpoint = .ok bound)
      (incomplete : bound.complete? = none) :
      Exits r endpoint token hello now
        (.ok .pending, { r.note endpoint token with
          pending := (r.pending.erase hello.nonce).insert hello.nonce bound })
  | completes (newer : r.isStale endpoint token = false) (free : r.connectionAt? endpoint = none)
      (new : r.connectionOf? hello.nonce = none)
      (matching : hello.game = r.game ∧ hello.version = r.version) (bound : Draft)
      (binds : (r.draftFor hello now).bind hello.channel endpoint = .ok bound) (address : Address)
      (others : List Address) (complete : bound.complete? = some (address, others))
      (room : r.connections.size < r.maxClients) :
      Exits r endpoint token hello now
        ((((r.note endpoint token).withdraw hello).enrol hello.nonce address others now).map .ok id)

theorem exits_register (r : Registry) (endpoint : Address) (token : OrderNumber) (hello : Hello)
    (now : Instant) :
    Exits r endpoint token hello now (r.register endpoint token hello now) := by
  unfold register
  split
  case isTrue old => exact .stale old
  case isFalse newer =>
    rw [Bool.not_eq_true] at newer
    dsimp only
    split
    case h_1 c held =>
      split
      case isTrue own => exact .duplicate newer c held own
      case isFalse foreign => exact .inUse newer c held foreign
    case h_2 free =>
      split
      case h_1 c live => exact .taken newer free c live
      case h_2 new =>
        unfold bind
        dsimp only
        split
        case h_1 e unbound => exact .violates newer free new e unbound
        case h_2 bound binds =>
          unfold advance
          split
          case isTrue foreign =>
            exact .rejected newer free new bound binds _ (.mismatch (by simpa using foreign))
          case isFalse matching =>
            have same : hello.game = r.game ∧ hello.version = r.version := by simpa using matching
            split
            case h_1 incomplete => exact .waits newer free new same bound binds incomplete
            case h_2 address others complete =>
              split
              case isTrue crowded =>
                exact .rejected newer free new bound binds _
                  (.full same (by rw [complete]; rfl) crowded)
              case isFalse room =>
                exact .completes newer free new same bound binds address others complete
                  (Nat.lt_of_not_le room)

end DatagramSession.Registry
