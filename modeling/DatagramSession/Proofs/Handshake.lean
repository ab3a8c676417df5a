import DatagramSession.Proofs.Heads
import DatagramSession.Proofs.Identity
import DatagramSession.Proofs.Tending
/-!
# Control messages between a server and its client

`Handshake` is a client at one address, its server, and a network that keeps every datagram that
either has sent and delivers any of them at any time, any number of times.  As long as one
connection is opened and its queue is given fewer messages than half the circle has numbers,
whatever the client has applied or answered was shown by the queue of that connection, and it has
applied a frame that is no earlier than those that it has answered (`Handshake.Orderly`).  Main
statement: `Run.sound`, this holds in every run.
-/
namespace DatagramSession

/-- A client, its server, and what has come of their dealings. -/
structure Handshake where
  client : Client
  server : Server
  /-- The nonces of the sessions that the client has started. -/
  nonces : List Nonce := []
  /-- What became of the datagrams that have reached the server. -/
  routed : List Routed := []
  /-- The control messages that the host has queued. -/
  queued : List ControlMessage := []
  /-- The control frames that the client has applied. -/
  applied : List ControlFrame := []
  /-- The datagrams in which the client has confirmed a control frame, each with that frame. -/
  answers : List (Datagram × ControlFrame) := []

namespace Handshake

/-- A client and a server that have not done anything yet. -/
def start (clientConfig : ClientConfig) (serverConfig : ServerConfig) (serverAddress : Address) :
    Handshake where
  client := { config := clientConfig, server := serverAddress }
  server := Server.start serverConfig

/-- The connections that the server has opened, in order. -/
def opened (w : Handshake) : List ConnectionId :=
  w.routed.filterMap Server.Routed.registered?

/-- The client starts a new session. -/
def connect (w : Handshake) (nonce : Nonce) : Handshake :=
  { w with client := (w.client.connect nonce).2, nonces := w.nonces ++ [nonce] }

/-- The host asks for a client to go away. -/
def kick (w : Handshake) (id : ConnectionId) (reason : String) : Handshake :=
  { w with server := (w.server.kick id reason).2, queued := w.queued ++ [.kick reason] }

/-- The host queues a control message. -/
def tell (w : Handshake) (id : ConnectionId) (m : ControlMessage) : Handshake :=
  { w with server := w.server.tell id m, queued := w.queued ++ [m] }

/-- A datagram arrives at the server. -/
def up (w : Handshake) (address : Address) (bytes : List UInt8) : Handshake :=
  { w with
    server := (w.server.route address bytes).2
    routed := w.routed ++ [(w.server.route address bytes).1] }

/-- The datagrams that the client has sent since it had sent `n`. -/
def sentSince (w : Handshake) (n : Nat) : List Datagram :=
  w.client.transport.sent.drop n

/-- A datagram arrives at the client. -/
def down (w : Handshake) (bytes : List UInt8) : Handshake :=
  let w' := { w with client := w.client.takeDatagram w.client.server bytes }
  match w.client.hears? bytes with
  | none => w'
  | some f =>
    { w' with
      applied := if f.order.isNewer w.client.controlWatermark then w.applied ++ [f] else w.applied
      answers := w.answers ++ (w'.sentSince w.client.transport.sent.length).map (·, f) }

/-- One thing that happens.  Nothing is taken from the outboxes, so that all that was ever sent may
still arrive. -/
inductive Step (address : Address) : Handshake → Handshake → Prop where
  | connect (w : Handshake) (nonce : Nonce) : Step address w (w.connect nonce)
  | client (w : Handshake) (c : Client) (does : Client.Does w.client c) :
      Step address w { w with client := c }
  | server (w : Handshake) (s : Server) (tends : Server.Tends w.server s) :
      Step address w { w with server := s }
  | kick (w : Handshake) (id : ConnectionId) (reason : String) : Step address w (w.kick id reason)
  /-- Registered messages are queued when a connection is opened, and not by hosts. -/
  | tell (w : Handshake) (id : ConnectionId) (m : ControlMessage) (other : ∀ j, m ≠ .registered j) :
      Step address w (w.tell id m)
  | up (w : Handshake) (d : Datagram) (sent : d ∈ w.client.transport.sent) :
      Step address w (w.up address d.bytes)
  | down (w : Handshake) (d : Datagram) (sent : d ∈ w.server.transport.sent) :
      Step address w (w.down d.bytes)

inductive Run (address : Address) (w₀ : Handshake) : Handshake → Prop where
  | start : Run address w₀ w₀
  | next {w w' : Handshake} : Run address w₀ w → Step address w w' → Run address w₀ w'

/-- One connection at most was opened, and its queue was given fewer messages than half the circle
has numbers. -/
def Brief (w : Handshake) : Prop :=
  w.opened.length ≤ 1 ∧ 2 + w.queued.length ≤ halfRange

/-- The live connection has this queue. -/
structure Orderly (w : Handshake) (q : ControlQueue) : Prop where
  tidy : q.Tidy w.queued.length
  posted : ∀ d ∈ w.server.transport.sent, ∀ f, Wire.frame? d.bytes = some f → f.confirms = true →
    q.Shows f
  applied : ∀ f ∈ w.applied, q.Shows f
  answered : ∀ a ∈ w.answers, q.Shows a.2 ∧ ∃ g ∈ w.applied, a.2.order.toNat ≤ g.order.toNat
  watermark : ∀ o ∈ w.client.controlWatermark, ∃ f ∈ w.applied, f.order = o

/-- No connection has been opened. -/
structure Untold (w : Handshake) : Prop where
  posted : ∀ d ∈ w.server.transport.sent, ∀ f, Wire.frame? d.bytes = some f → f.confirms = false
  applied : w.applied = []
  answers : w.answers = []
  watermark : w.client.controlWatermark = none

/-- What every run keeps. -/
structure Sound (address : Address) (w : Handshake) : Prop where
  honest : w.server.Honest address w.opened
  listens : .events ∈ w.server.lobby.watchers
  replies : ∀ d ∈ w.client.transport.sent, ∀ f, Wire.frame? d.bytes = some f → ∃ g,
    (d, g) ∈ w.answers
  answers : ∀ a ∈ w.answers, Wire.frame? a.1.bytes = some (.numbered a.2.order .confirm true)
  untold : w.opened = [] → w.Untold
  orderly : w.Brief → ∀ k c, w.server.connection? k = some c → w.Orderly c.control
  kicked : w.Brief → ∀ k, .disconnected k .kicked ∈ w.server.lobby.events →
    ∃ f ∈ w.applied, ∃ reason, f.message = .kick reason

section
variable {address : Address} {w w' : Handshake} {q : ControlQueue}

theorem opened_up (w : Handshake) (address : Address) (bytes : List UInt8) :
    (w.up address bytes).opened =
    w.opened ++ (Server.Routed.registered? (w.server.route address bytes).1).toList := by
  simp only [opened, up, List.filterMap_append]
  cases h : Server.Routed.registered? (w.server.route address bytes).1 <;> simp [h]

/-- A datagram that arrives at the client changes the client and what is on record of it. -/
theorem down_eq (w : Handshake) (bytes : List UInt8) : ∃ applied answers,
    w.down bytes =
      { w with client := w.client.takeDatagram w.client.server bytes, applied, answers } := by
  unfold down
  dsimp only
  split <;> exact ⟨_, _, rfl⟩

theorem client_down (w : Handshake) (bytes : List UInt8) :
    (w.down bytes).client = w.client.takeDatagram w.client.server bytes := by
  obtain ⟨applied, answers, same⟩ := w.down_eq bytes
  rw [same]

theorem opened_down (w : Handshake) (bytes : List UInt8) : (w.down bytes).opened = w.opened := by
  obtain ⟨applied, answers, same⟩ := w.down_eq bytes
  rw [same]
  rfl

theorem server_down (w : Handshake) (bytes : List UInt8) : (w.down bytes).server = w.server := by
  obtain ⟨applied, answers, same⟩ := w.down_eq bytes
  rw [same]

theorem queued_down (w : Handshake) (bytes : List UInt8) : (w.down bytes).queued = w.queued := by
  obtain ⟨applied, answers, same⟩ := w.down_eq bytes
  rw [same]

/-- What has happened stays in the record. -/
theorem brief_of_step (step : Step address w w') (brief : w'.Brief) : w.Brief := by
  obtain ⟨single, few⟩ := brief
  cases step with
  | connect | client | server => exact ⟨single, few⟩
  | kick | tell =>
    simp only [kick, tell, List.length_append] at few
    exact ⟨single, by omega⟩
  | up d sent =>
    refine ⟨?_, few⟩
    rw [opened_up, List.length_append] at single
    omega
  | down d sent =>
    rw [opened_down] at single
    rw [queued_down] at few
    exact ⟨single, few⟩

/-- A control frame that the client has sent confirms one that it has answered. -/
theorem Sound.reply (h : w.Sound address) {d : Datagram} (sent : d ∈ w.client.transport.sent)
    {f : ControlFrame} (frame : Wire.frame? d.bytes = some f) :
    ∃ g, (d, g) ∈ w.answers ∧ f = .numbered g.order .confirm true := by
  obtain ⟨g, given⟩ := h.replies d sent f frame
  have reply := h.answers _ given
  rw [frame] at reply
  exact ⟨g, given, Option.some.inj reply⟩

/-! ## The client acts -/

theorem Sound.quiet (h : w.Sound address) {c : Client} (nonces : List Nonce)
    (replies : ∀ d ∈ c.transport.sent, ∀ f, Wire.frame? d.bytes = some f →
      d ∈ w.client.transport.sent)
    (watermark : c.controlWatermark = w.client.controlWatermark ∨ c.controlWatermark = none) :
    ({ w with client := c, nonces } : Handshake).Sound address := by
  have known : ∀ o ∈ c.controlWatermark, o ∈ w.client.controlWatermark := by
    intro o mem
    rcases watermark with same | none
    · exact same ▸ mem
    · rw [none] at mem
      cases mem
  constructor
  case honest => exact h.honest
  case listens => exact h.listens
  case replies =>
    intro d sent f frame
    exact h.replies d (replies d sent f frame) f frame
  case answers => exact h.answers
  case untold =>
    intro none
    have untold := h.untold none
    exact ⟨untold.posted, untold.applied, untold.answers,
      watermark.elim (·.trans untold.watermark) id⟩
  case orderly =>
    intro brief k c live
    have orderly := h.orderly brief k c live
    exact ⟨orderly.tidy, orderly.posted, orderly.applied, orderly.answered,
      fun o mem => orderly.watermark o (known o mem)⟩
  case kicked => exact h.kicked

theorem Sound.mute (h : w.Sound address) {c : Client} (mute : Client.Mute w.client c) :
    ({ w with client := c } : Handshake).Sound address := by
  refine h.quiet w.nonces (fun d sent f frame => ?_) (.inl mute.keeps)
  rcases mute.plain d sent with old | ⟨p, encoded, plain, _⟩
  · exact old
  · exact absurd (Wire.frame?_of_encode encoded frame) (plain f)

theorem Sound.connect (h : w.Sound address) (nonce : Nonce) : (w.connect nonce).Sound address := by
  refine h.quiet _ (fun d sent f frame => ?_) (.inr rfl)
  rcases Transport.mem_sent_send sent with old | encoded
  · exact old
  · cases Wire.frame?_of_encode encoded frame

/-- A frame that the queue shows is applied if it is new; else a later one was applied before. -/
theorem Orderly.hears (h : w.Orderly q) (few : 2 + w.queued.length ≤ halfRange) {f : ControlFrame}
    (shown : q.Shows f) {c : Client} (marks : c.controlWatermark =
      if f.order.isNewer w.client.controlWatermark then some f.order else w.client.controlWatermark)
    (given : List Datagram) :
    ({ w with
      client := c
      applied := if f.order.isNewer w.client.controlWatermark then w.applied ++ [f] else w.applied
      answers := w.answers ++ given.map (·, f) } : Handshake).Orderly q := by
  let applied := if f.order.isNewer w.client.controlWatermark then w.applied ++ [f] else w.applied
  have kept : w.applied ⊆ applied := by
    dsimp only [applied]
    split
    · exact List.subset_append_left _ _
    · exact List.Subset.refl _
  have reached : ∃ g ∈ applied, f.order.toNat ≤ g.order.toNat := by
    dsimp only [applied]
    split
    case isTrue => exact ⟨f, List.mem_append_right _ (List.mem_singleton_self f), Nat.le_refl _⟩
    case isFalse old =>
      cases mark : w.client.controlWatermark with
      | none => simp [mark] at old
      | some o =>
        obtain ⟨g, mem, rfl⟩ := h.watermark o mark
        rw [mark, OrderNumber.isNewer_some, OrderNumber.after_of_lt (h.tidy.lt_halfRange few shown)
          (h.tidy.lt_halfRange few (h.applied g mem)), decide_eq_true_eq, Nat.not_lt] at old
        exact ⟨g, mem, old⟩
  constructor
  case tidy => exact h.tidy
  case posted => exact h.posted
  case applied =>
    intro g mem
    dsimp only at mem
    split at mem
    · rcases List.mem_append.1 mem with old | new
      · exact h.applied g old
      · exact List.mem_singleton.1 new ▸ shown
    · exact h.applied g mem
  case answered =>
    intro a mem
    rcases List.mem_append.1 mem with old | new
    · obtain ⟨shown, g, mem, le⟩ := h.answered a old
      exact ⟨shown, g, kept mem, le⟩
    · obtain ⟨d, _, rfl⟩ := List.mem_map.1 new
      exact ⟨shown, reached⟩
  case watermark =>
    intro o mem
    rw [marks] at mem
    dsimp only
    split at mem
    case isTrue newer =>
      cases mem
      rw [if_pos newer]
      exact ⟨f, List.mem_append_right _ (List.mem_singleton_self f), rfl⟩
    case isFalse =>
      obtain ⟨g, mem, same⟩ := h.watermark o mem
      exact ⟨g, kept mem, same⟩

theorem Sound.down (h : w.Sound address) {d : Datagram} (sent : d ∈ w.server.transport.sent) :
    (w.down d.bytes).Sound address := by
  unfold Handshake.down
  cases heard : w.client.hears? d.bytes with
  | none =>
    obtain ⟨replies, watermark⟩ := w.client.quiet_of_hears?_eq_none heard
    exact h.quiet w.nonces replies (.inl watermark)
  | some f =>
    obtain ⟨_, frame, asks⟩ := Client.hears?_eq_some.1 heard
    obtain ⟨outbox, marks⟩ := w.client.sent_of_hears? heard
    have fresh : ∀ d' ∈ (w.client.takeDatagram w.client.server d.bytes).transport.sent,
        d' ∈ w.client.transport.sent ∨
        d' ∈ (w.client.takeDatagram w.client.server d.bytes).transport.sent.drop
        w.client.transport.sent.length := by
      intro d' mem
      rcases outbox with same | ⟨new, _, more⟩
      · exact .inl (same ▸ mem)
      · rw [more] at mem ⊢
        rwa [List.drop_left, ← List.mem_append]
    constructor
    case honest => exact h.honest
    case listens => exact h.listens
    case replies =>
      intro d' mem f' frame'
      rcases fresh d' mem with old | new
      · obtain ⟨g, given⟩ := h.replies d' old f' frame'
        exact ⟨g, List.mem_append_left _ given⟩
      · exact ⟨f, List.mem_append_right _ (List.mem_map_of_mem new)⟩
    case answers =>
      intro a mem
      rcases List.mem_append.1 mem with old | new
      · exact h.answers a old
      · obtain ⟨d', since, rfl⟩ := List.mem_map.1 new
        rcases outbox with same | ⟨reply, confirms, more⟩
        · simp [sentSince, same] at since
        · simp only [sentSince, more, List.drop_left, List.mem_singleton] at since
          exact since ▸ confirms
    case untold =>
      intro none
      have unasked := (h.untold none).posted d sent f frame
      rw [asks] at unasked
      cases unasked
    case orderly =>
      intro brief k c live
      have orderly := h.orderly brief k c live
      exact orderly.hears brief.2 (orderly.posted d sent f frame asks) marks _
    case kicked =>
      intro brief k closed
      obtain ⟨g, mem, kick⟩ := h.kicked brief k closed
      refine ⟨g, ?_, kick⟩
      dsimp only
      split
      · exact List.mem_append_left _ mem
      · exact mem

/-! ## The host acts -/

/-- Two connections that are live are one. -/
theorem Sound.only (h : w.Sound address) {k j : ConnectionId} {c c' : Connection}
    (live : w.server.connection? k = some c) (live' : w.server.connection? j = some c') :
    k = j := by
  have same := (h.honest.newest live).symm.trans (h.honest.newest live')
  exact Option.some.inj same

/-- Whatever goes out without a control message being queued, the queue shows it. -/
theorem Sound.posted (h : w.Sound address) {s : Server} {turned : Prop}
    (tended : Server.Tended turned w.server s) {k : ConnectionId} {c : Connection}
    (live : w.server.connection? k = some c) (orderly : w.Orderly c.control) :
    ∀ d ∈ s.transport.sent, ∀ f, Wire.frame? d.bytes = some f → f.confirms = true →
    c.control.Shows f := by
  intro d sent f frame asks
  rcases tended.posts d sent with old | ⟨p, encoded, posts⟩
  · exact orderly.posted d old f frame asks
  · rw [Wire.frame?_of_encode encoded frame] at posts
    cases posts with
    | head live' head =>
      obtain rfl := h.only live live'
      rw [live] at live'
      cases live'
      exact .inr head
    | refusal => simp at asks

theorem Sound.tended (h : w.Sound address) {s : Server} {turned : Prop}
    (tended : Server.Tended turned w.server s) (routed : List Routed)
    (honest : s.Honest address (routed.filterMap Server.Routed.registered?))
    (unopened : routed.filterMap Server.Routed.registered? = w.opened) :
    ({ w with server := s, routed } : Handshake).Sound address := by
  have brief : ({ w with server := s, routed } : Handshake).Brief → w.Brief := by
    rintro ⟨single, few⟩
    exact ⟨unopened ▸ single, few⟩
  constructor
  case honest => exact honest
  case listens => exact tended.watchers h.listens
  case replies => exact h.replies
  case answers => exact h.answers
  case untold =>
    intro none
    have none : w.opened = [] := unopened ▸ none
    have untold := h.untold none
    refine ⟨fun d sent f frame => ?_, untold.applied, untold.answers, untold.watermark⟩
    rcases tended.posts d sent with old | ⟨p, encoded, posts⟩
    · exact untold.posted d old f frame
    · rw [Wire.frame?_of_encode encoded frame] at posts
      cases posts with
      | head live =>
        have newest := h.honest.newest live
        rw [none] at newest
        cases newest
      | refusal => exact ControlFrame.confirms_numbered _ _ _
  case orderly =>
    intro short k c live
    obtain ⟨c₀, before, same⟩ := tended.spares k c live
    have orderly := h.orderly (brief short) k c₀ before
    rw [same]
    exact ⟨orderly.tidy, h.posted tended before orderly, orderly.applied, orderly.answered,
      orderly.watermark⟩
  case kicked =>
    intro short k closed
    exact h.kicked (brief short) k (tended.kicks k closed)

/-- The host queues a message. -/
theorem Sound.queue (h : w.Sound address) (id : ConnectionId) (m : ControlMessage)
    {f : Connection → Connection}
    (honest : { w.server with lobby := w.server.lobby.modify id f }.Honest address w.opened)
    (tidy : ∀ c, c.control.Tidy w.queued.length → 2 + w.queued.length ≤ halfRange →
      (f c).control.Tidy (w.queued.length + 1) ∧ ∀ g, c.control.Shows g → (f c).control.Shows g) :
    ({ w with
      server := { w.server with lobby := w.server.lobby.modify id f }
      queued := w.queued ++ [m] } : Handshake).Sound address := by
  have brief : ({ w with
      server := { w.server with lobby := w.server.lobby.modify id f }
      queued := w.queued ++ [m] } : Handshake).Brief → w.Brief := by
    rintro ⟨single, few⟩
    rw [List.length_append] at few
    exact ⟨single, by omega⟩
  constructor
  case honest => exact honest
  case listens => exact h.listens
  case replies => exact h.replies
  case answers => exact h.answers
  case untold =>
    intro none
    have untold := h.untold none
    exact ⟨untold.posted, untold.applied, untold.answers, untold.watermark⟩
  case kicked =>
    intro short
    exact h.kicked (brief short)
  case orderly =>
    intro short k c live
    have few := (brief short).2
    have whole : (w.queued ++ [m]).length = w.queued.length + 1 := by simp
    rw [Server.connection?_modify] at live
    split at live
    case isTrue =>
      obtain ⟨c₀, before, rfl⟩ := Option.map_eq_some_iff.1 live
      have orderly := h.orderly (brief short) k c₀ before
      obtain ⟨tidy, kept⟩ := tidy c₀ orderly.tidy few
      refine ⟨whole ▸ tidy, fun d sent g frame asks => kept g (orderly.posted d sent g frame asks),
        fun g mem => kept g (orderly.applied g mem), fun a mem => ?_, orderly.watermark⟩
      exact (orderly.answered a mem).imp_left (kept a.2)
    case isFalse =>
      have orderly := h.orderly (brief short) k c live
      have count := orderly.tidy.count
      exact ⟨⟨by rw [whole]; omega, orderly.tidy.accepted⟩, orderly.posted, orderly.applied,
        orderly.answered, orderly.watermark⟩

/-! ## Datagrams reach the server -/

/-- The confirmation of a kick was given by a client that has applied the kick. -/
theorem Orderly.kick (h : w.Orderly q) {a : Datagram × ControlFrame} (given : a ∈ w.answers)
    {n : Nat} (tidy : q.Tidy n) (few : 2 + n ≤ halfRange) {reason : String}
    (confirms : (q.accept a.2.order true).1 = .accepted (some (.kick reason))) :
    ∃ f ∈ w.applied, ∃ reason, f.message = .kick reason := by
  obtain ⟨shown, g, applied, le⟩ := h.answered a given
  rcases ControlQueue.accept_shown tidy few shown with ⟨head, same, _⟩ | ⟨_, other, _⟩
  · rw [confirms] at same
    have last : g = a.2 := (h.applied g applied).head head le
    exact ⟨g, applied, reason, last ▸ (Option.some.inj (Acceptance.accepted.inj same)).symm⟩
  · exact absurd confirms (other _)

theorem Sound.confirmed (h : w.Sound address) {d : Datagram} (sent : d ∈ w.client.transport.sent)
    {f : ControlFrame} (frame : Wire.frame? d.bytes = some f) {c : Connection}
    (found : w.server.lobby.registry.connectionAt? address = some c)
    (other : Server.Routed.registered? (w.server.route address d.bytes).1 = none) :
    (w.up address d.bytes).Sound address := by
  obtain ⟨g, given, rfl⟩ := h.reply sent frame
  have live := Server.connection?_of_connectionAt? h.honest.keyed found
  have unopened : (w.up address d.bytes).opened = w.opened := by simp [opened_up, other]
  have honest : (w.server.route address d.bytes).2.Honest address
      (w.up address d.bytes).opened := by
    rw [opened_up]
    exact h.honest.route d.bytes
  have brief : (w.up address d.bytes).Brief → w.Brief := by
    rintro ⟨single, few⟩
    exact ⟨unopened ▸ single, few⟩
  have transport : (w.server.route address d.bytes).2.transport = w.server.transport := by
    apply Server.transport_route
    intro rejected
    rw [Server.route_frame frame, found] at rejected
    simp only [Server.routeControl] at rejected
    split at rejected <;> cases rejected
  obtain ⟨watchers, outcome⟩ := Server.route_frame_cases h.honest.keyed found frame
  rw [ControlFrame.confirms_numbered] at outcome
  constructor
  case honest => exact honest
  case listens => exact watchers ▸ h.listens
  case replies => exact h.replies
  case answers => exact h.answers
  case untold =>
    intro none
    have newest := h.honest.newest live
    rw [unopened] at none
    rw [none] at newest
    cases newest
  case orderly =>
    intro short k c' live'
    have orderly := h.orderly (brief short) c.id c live
    have few := (brief short).2
    obtain rfl : c.id = k := by
      have newest := honest.newest live'
      rw [unopened, h.honest.newest live] at newest
      exact Option.some.inj newest
    rcases outcome with ⟨_, _, _, gone, _⟩ | ⟨_, _, ⟨c'', after, control⟩, _⟩
    · -- The sole connection is closed.
      rw [Handshake.up, gone] at live'
      cases live'
    · rw [Handshake.up, after] at live'
      cases live'
      have shown : c.control.Shows g := (orderly.answered _ given).1
      have accepted : c'.control = (c.control.accept g.order true).2 := control
      have kept (g' : ControlFrame) (was : c.control.Shows g') : c'.control.Shows g' := by
        rw [accepted]
        exact shown.accept orderly.tidy few was
      refine ⟨?_, ?_, fun g' mem => kept g' (orderly.applied g' mem), fun a mem => ?_,
        orderly.watermark⟩
      · rw [accepted]
        exact orderly.tidy.accept few shown
      · intro d' sent' f' frame' asks
        rw [Handshake.up, transport] at sent'
        exact kept f' (orderly.posted d' sent' f' frame' asks)
      · exact (orderly.answered a mem).imp_left (kept a.2)
  case kicked =>
    intro short k closed
    have orderly := h.orderly (brief short) c.id c live
    rcases outcome with ⟨reason, confirms, _⟩ | ⟨_, _, _, events⟩
    · exact orderly.kick given orderly.tidy (brief short).2 confirms
    · exact h.kicked (brief short) k (events ▸ closed)

theorem Sound.opens (h : w.Sound address) {d : Datagram} {id : ConnectionId}
    (registered : Server.Routed.registered? (w.server.route address d.bytes).1 = some id) :
    (w.up address d.bytes).Sound address := by
  obtain ⟨token, hello, completed, result⟩ := Server.route_opens address registered
  obtain ⟨⟨c, live, control⟩, watchers, events⟩ := Lobby.control_register completed
  have honest : (w.server.route address d.bytes).2.Honest address
      (w.up address d.bytes).opened := by
    rw [opened_up]
    exact h.honest.route d.bytes
  have opened : (w.up address d.bytes).opened = w.opened ++ [id] := by simp [opened_up, registered]
  have none (short : (w.up address d.bytes).Brief) : w.opened = [] := by
    have single := short.1
    rw [opened, List.length_append] at single
    exact List.length_eq_zero_iff.1 (by simpa using single)
  have brief (short : (w.up address d.bytes).Brief) : w.Brief := by
    refine ⟨?_, short.2⟩
    rw [none short]
    exact Nat.zero_le 1
  have live : (w.server.route address d.bytes).2.connection? id = some c := by
    rw [result]
    exact live
  constructor
  case honest => exact honest
  case listens =>
    rw [Handshake.up, result]
    exact watchers ▸ h.listens
  case replies => exact h.replies
  case answers => exact h.answers
  case untold =>
    intro unopened
    rw [opened] at unopened
    cases (List.append_eq_nil_iff.1 unopened).2
  case orderly =>
    intro short k c' live'
    obtain rfl : id = k := by
      have newest := honest.newest live'
      rw [honest.newest live] at newest
      exact Option.some.inj newest
    rw [Handshake.up, live] at live'
    cases live'
    have untold := h.untold (none short)
    rw [control]
    refine ⟨⟨?_, nofun⟩, fun d' sent f frame asks => ?_, ?_, ?_, ?_⟩
    · exact Nat.le_add_right 2 _
    · rw [Handshake.up, result] at sent
      have unasked := untold.posted d' sent f frame
      rw [asks] at unasked
      cases unasked
    · simp [Handshake.up, untold.applied]
    · simp [Handshake.up, untold.answers]
    · simp [Handshake.up, untold.watermark]
  case kicked =>
    intro short k closed
    rw [Handshake.up, result] at closed
    exact h.kicked (brief short) k (events k .kicked closed)

theorem Sound.up (h : w.Sound address) {d : Datagram} (sent : d ∈ w.client.transport.sent) :
    (w.up address d.bytes).Sound address := by
  cases registered : Server.Routed.registered? (w.server.route address d.bytes).1 with
  | some id => exact h.opens registered
  | none =>
    have honest := h.honest.route d.bytes
    rw [← opened_up] at honest
    have unopened : (w.up address d.bytes).opened = w.opened := by simp [opened_up, registered]
    cases frame : Wire.frame? d.bytes with
    | none => exact h.tended (Server.route_tended address frame registered id) _ honest unopened
    | some f =>
      cases found : w.server.lobby.registry.connectionAt? address with
      | some c => exact h.confirmed sent frame found registered
      | none =>
        have same : (w.server.route address d.bytes).2 = w.server := by
          rw [Server.route_frame frame, found]
        have rests : Server.Tended False w.server (w.server.route address d.bytes).2 := by
          rw [same]
          exact Server.tended_refl _
        exact h.tended rests _ honest unopened

/-! ## Runs -/

theorem step_sound (step : Step address w w') (h : w.Sound address) : w'.Sound address := by
  cases step with
  | connect nonce => exact h.connect nonce
  | client c does => exact h.mute does.mute
  | server s tends =>
    have tended : Server.Tended False w.server s := tends.tended
    exact h.tended tended w.routed (tends.does.honest h.honest) rfl
  | kick id reason =>
    refine h.queue id (.kick reason) ((Server.Does.kick w.server id reason).honest h.honest) fun c
      tidy few => ?_
    exact ⟨tidy.replace few _, fun g shown => shown.replace (tidy.low few) _⟩
  | tell id m other =>
    refine h.queue id m ((Server.Does.tell w.server id m other).honest h.honest)
      fun c tidy few => ?_
    exact ⟨tidy.push m, fun g shown => shown.push m⟩
  | up d sent => exact h.up sent
  | down d sent => exact h.down sent

theorem sound_start (clientConfig : ClientConfig) (serverConfig : ServerConfig)
    (serverAddress : Address) :
    (start clientConfig serverConfig serverAddress).Sound address where
  honest := Server.honest_start serverConfig address
  listens := List.mem_cons_of_mem _ List.mem_cons_self
  replies := nofun
  answers := nofun
  untold _ := ⟨nofun, rfl, rfl, rfl⟩
  orderly _ := nofun
  kicked _ := nofun

theorem Run.sound {w₀ : Handshake} (run : Run address w₀ w) (start : w₀.Sound address) :
    w.Sound address := by
  induction run with
  | start => exact start
  | next _ step ih => exact step_sound step ih

end

end Handshake
end DatagramSession
