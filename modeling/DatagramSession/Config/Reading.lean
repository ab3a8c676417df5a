import DatagramSession.Config
import DatagramSession.Config.Record
/-!
# Reading settings

`ServerConfig.parse` and `ClientConfig.parse` read a whole text.  A field that is not given keeps
its default and an unknown one is ignored; a length of time and the packet loss must be given
completely.
-/
namespace DatagramSession
namespace Config

def readText (cs : List Char) : Except Fault (String × List Char) :=
  match skipBlanks cs with
  | [] => .error .truncated
  | '"' :: rest => scanText rest
  | cs => misfit cs

def readFlag (cs : List Char) : Except Fault (Bool × List Char) :=
  match skipBlanks cs with
  | [] => .error .truncated
  | 't' :: rest => do .ok (true, ← scanWord "rue".toList rest)
  | 'f' :: rest => do .ok (false, ← scanWord "alse".toList rest)
  | cs => misfit cs

def readNumber (cs : List Char) : Except Fault (Number × List Char) :=
  match skipBlanks cs with
  | [] => .error .truncated
  | cs => (scanNumber? cs).getD (misfit cs)

/-- A whole number of at most the given bits. -/
def readWord (bits : Nat) (cs : List Char) : Except Fault (Nat × List Char) := do
  match ← readNumber cs with
  | (.whole n, cs) => if n.toNat < 1 <<< bits then .ok (n.toNat, cs) else .error .unfit
  | _ => .error .unfit

/-- The single-precision number nearest to what is written. -/
def Number.toFloat32 : Number → Float32
  | whole n => n.toFloat32
  | negative n => n.toFloat32
  | real x => x.toFloat32

def readShare (cs : List Char) : Except Fault (Float32 × List Char) := do
  let (n, cs) ← readNumber cs
  .ok (n.toFloat32, cs)

/-! ## Lengths of time -/

/-- The two parts of a length of time, as far as they have been read. -/
structure DurationParts where
  secs : Option Nat := none
  nanos : Option Nat := none

/-- Both parts are needed; nanoseconds carry into seconds, which must stay a 64-bit number. -/
def DurationParts.total : DurationParts → Except Fault Duration
  | ⟨some secs, some nanos⟩ =>
    if secs + nanos / seconds 1 < UInt64.size then .ok (seconds secs + nanos) else .error .unfit
  | _ => .error .unfit

def readDuration : List Char → Except Fault (Duration × List Char) :=
  readRecord
    [.of "secs" (readWord 64) fun d n => { d with secs := some n },
      .of "nanos" (readWord 32) fun d n => { d with nanos := some n }]
    true {} DurationParts.total

/-! ## Packet loss -/

structure LossParts where
  enabled : Option Bool := none
  percent : Option Float32 := none

def LossParts.whole : LossParts → Except Fault PacketLoss
  | ⟨some enabled, some percent⟩ => .ok { enabled, percent }
  | _ => .error .unfit

def readPacketLoss : List Char → Except Fault (PacketLoss × List Char) :=
  readRecord
    [.of "enabled" readFlag fun p b => { p with enabled := some b },
      .of "loss_percent" readShare fun p x => { p with percent := some x }]
    false {} LossParts.whole

/-- A value or the word for none. -/
def readOptional {α : Type} (read : List Char → Except Fault (α × List Char)) (cs : List Char) :
    Except Fault (Option α × List Char) :=
  match skipBlanks cs with
  | 'n' :: rest => do .ok (none, ← scanWord "ull".toList rest)
  | cs => do
    let (a, cs) ← read cs
    .ok (some a, cs)

/-! ## Whole texts -/

/-- The fields of a server's settings, in the order in which a list gives them. -/
def serverFields : List (Field ServerConfig) :=
  [.of "game_name" readText fun c s => { c with game := s },
    .of "version" (readWord 32) fun c n => { c with version := UInt32.ofNat n },
    .of "channels" (readWord 64) fun c n => { c with channels := n },
    .of "max_clients" (readWord 64) fun c n => { c with maxClients := n },
    .of "tick_rate" (readWord 32) fun c n => { c with tickRate := UInt32.ofNat n },
    .of "io_threads" (readWord 64) fun c n => { c with ioThreads := n },
    .of "resend_interval" readDuration fun c d => { c with resendInterval := d },
    .of "liveness_timeout" readDuration fun c d => { c with livenessTimeout := d },
    .of "packet_loss" (readOptional readPacketLoss) fun c p => { c with packetLoss := p }]

/-- The fields of a client's settings, in the order in which a list gives them. -/
def clientFields : List (Field ClientConfig) :=
  [.of "game_name" readText fun c s => { c with game := s },
    .of "version" (readWord 32) fun c n => { c with version := UInt32.ofNat n },
    .of "tick_rate" (readWord 32) fun c n => { c with tickRate := UInt32.ofNat n },
    .of "registration_retry" readDuration fun c d => { c with registrationRetry := d },
    .of "connection_timeout" readDuration fun c d => { c with connectionTimeout := d }]

/-- Reads a record with defaults; nothing but blanks may follow it. -/
def parseWhole {ρ : Type} (fields : List (Field ρ)) (defaults : ρ) (text : String) :
    Except Fault ρ := do
  let (r, rest) ← readRecord fields false defaults .ok text.toList
  if (skipBlanks rest).isEmpty then .ok r else .error .malformed

end Config

def ServerConfig.parse (text : String) : Except Config.Fault ServerConfig :=
  Config.parseWhole Config.serverFields {} text

def ClientConfig.parse (text : String) : Except Config.Fault ClientConfig :=
  Config.parseWhole Config.clientFields {} text

end DatagramSession
