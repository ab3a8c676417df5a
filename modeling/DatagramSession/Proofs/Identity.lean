import DatagramSession.Proofs.Reconnects
import DatagramSession.Proofs.Replies
/-!
# Who the client thinks it is

`Dialogue` is a client at one address, its server, and a network that keeps every datagram that
either has sent and delivers any of them at any time, any number of times.  A client goes by an id
that it hears while it registers, and neither a control frame nor its confirmation tells the
connection that it belongs to.  So the id is that of the live connection or of an earlier one
(`id_of_registered`), and the latter does happen, though the client has confirmed the right id
(`mistaken_id_confirmed`).
-/
namespace DatagramSession

namespace Client

/-- Whoever is registered afterwards was registered before, under the same id. -/
def Calm (c c' : Client) : Prop :=
  c'.state.isRegistered = true → c.state.isRegistered = true ∧ c'.id = c.id

section
variable {c c' c'' : Client}

theorem calm_of_eq (state : c'.state = c.state) (id : c'.id = c.id) : Calm c c' := by
  intro registered
  exact ⟨state ▸ registered, id⟩

theorem calm_rest (c : Client) : Calm c c :=
  calm_of_eq rfl rfl

theorem Calm.trans (first : Calm c c') (second : Calm c' c'') : Calm c c'' := by
  intro registered
  obtain ⟨before, same⟩ := second registered
  exact (first before).imp_right same.trans

theorem Mute.calm (mute : Mute c c') : Calm c c' := by
  intro registered
  have on : c'.state ≠ .disconnected := by
    intro off
    rw [off] at registered
    cases registered
  obtain ⟨state, id⟩ := mute.stays on
  exact ⟨state ▸ registered, id⟩

/-- A client takes on an id only from a message that tells it. -/
theorem calm_applyControl (c : Client) (m : ControlMessage) :
    Calm c (c.applyControl m) ∨ ∃ j, m = .registered j ∧ (c.applyControl m).id = some j := by
  cases m with
  | registered j =>
    simp only [applyControl]
    split
    · exact .inr ⟨j, rfl, rfl⟩
    · exact .inl (calm_rest c)
  | servicesReady =>
    left
    simp only [applyControl]
    split
    case isTrue registered =>
      intro _
      rw [registered]
      exact ⟨rfl, rfl⟩
    case isFalse => exact calm_rest c
  | kick reason => exact .inl (mute_close c reason).calm
  | confirm => exact .inl (calm_rest c)

theorem calm_takeControl (c : Client) (f : ControlFrame) :
    Calm c (c.takeControl f) ∨ ∃ j, f.message = .registered j ∧ (c.takeControl f).id = some j := by
  have replied : Calm c (c.send (.control (.numbered f.order .confirm true))).2 :=
    calm_of_eq rfl rfl
  unfold takeControl
  split
  · dsimp only
    split
    · have marked : Calm c { (c.send (.control (.numbered f.order .confirm true))).2 with
          controlWatermark := some f.order } := replied.trans (calm_of_eq rfl rfl)
      exact (calm_applyControl _ f.message).imp_left marked.trans
    · exact .inl replied
  · exact calm_applyControl c f.message

/-- A client takes on an id only from a datagram that tells it. -/
theorem calm_takeDatagram (c : Client) (bytes : List UInt8) :
    Calm c (c.takeDatagram c.server bytes) ∨
      ∃ j ∈ Wire.introduces? bytes, (c.takeDatagram c.server bytes).id = some j := by
  cases frame : Wire.frame? bytes with
  | none => exact .inl (c.mute_takeDatagram c.server frame).calm
  | some f =>
    by_cases off : c.state = .disconnected
    · left
      rw [takeDatagram_of_disconnected off]
      exact calm_rest c
    · rw [takeDatagram_of_frame frame off]
      have noticed : Calm c { c with lastReceived := c.now } := calm_of_eq rfl rfl
      refine (calm_takeControl { c with lastReceived := c.now } f).imp noticed.trans ?_
      obtain ⟨header, decoded, _⟩ := Wire.decode_of_frame? frame
      obtain ⟨order, flags, message⟩ := f
      rintro ⟨j, rfl, told⟩
      refine ⟨j, ?_, told⟩
      rw [Wire.introduces?, decoded]
      rfl

end

/-- What an application and the clock may do with a client, connects apart. -/
inductive Does : Client → Client → Prop where
  | enqueue (c : Client) (command : Command) : Does c (c.enqueue command).2
  | update (c : Client) : Does c c.update.2
  | disconnect (c : Client) : Does c c.disconnect.2
  | addHandler (c : Client) (h : ClientHandler) : Does c (c.addHandler h)
  | removeHandler (c : Client) (h : ClientHandler) : Does c (c.removeHandler h).2
  | introduce (c : Client) (name : String) : Does c (c.introduce name)
  | takeDeliveries (c : Client) : Does c c.takeDeliveries.2
  | elapse (c : Client) (d : Duration) : Does c (c.elapse d)
  /-- The link changes. -/
  | relink (c : Client) (refuses : Datagram → Bool) :
      Does c { c with transport := { c.transport with refuses } }

theorem Does.mute (does : Does c c') : Mute c c' := by
  cases does with
  | update => exact mute_update c
  | disconnect => exact mute_disconnect c
  | enqueue | addHandler | removeHandler | introduce | takeDeliveries | elapse | relink =>
    exact mute_of_eq (by rfl) (by rfl) fun _ => ⟨by rfl, by rfl⟩

end Client

/-- The message that a datagram from this endpoint confirms, and the connection that it was for. -/
def Server.confirms? (s : Server) (endpoint : Address) (bytes : List UInt8) :
    Option (ConnectionId × ControlMessage) :=
  match Wire.decode bytes, s.lobby.registry.connectionAt? endpoint with
  | .ok ⟨_, .control f⟩, some c =>
    match (c.accept f.order f.confirms).1 with
    | .accepted confirmed => confirmed.map (c.id, ·)
    | .stale => none
  | _, _ => none

/-- A client, its server, and what has come of their dealings. -/
structure Dialogue where
  client : Client
  server : Server
  /-- The connections that the server has opened, in order. -/
  opened : List ConnectionId := []
  /-- The ids that have reached the client since it last connected. -/
  told : List ConnectionId := []
  /-- The control messages that were confirmed, each with its connection. -/
  confirmed : List (ConnectionId × ControlMessage) := []

namespace Dialogue

open Sessions (datagramOf helloOf welcomeOf)

/-- A client and a server that have not done anything yet. -/
def start (clientConfig : ClientConfig) (serverConfig : ServerConfig) (serverAddress : Address) :
    Dialogue where
  client := { config := clientConfig, server := serverAddress }
  server := Server.start serverConfig

/-- The client starts a new session. -/
def connect (w : Dialogue) (nonce : Nonce) : Dialogue :=
  { w with client := (w.client.connect nonce).2, told := [] }

/-- A datagram arrives at the server. -/
def up (w : Dialogue) (address : Address) (bytes : List UInt8) : Dialogue :=
  { w with
    server := (w.server.route address bytes).2
    opened := w.opened ++ (Server.Routed.registered? (w.server.route address bytes).1).toList
    confirmed := w.confirmed ++ (w.server.confirms? address bytes).toList }

/-- A datagram arrives at the client. -/
def down (w : Dialogue) (bytes : List UInt8) : Dialogue :=
  { w with
    client := w.client.takeDatagram w.client.server bytes
    told := w.told ++ (Wire.introduces? bytes).toList }

/-- One thing that happens.  Nothing is taken from the outboxes, so that all that was ever sent may
still arrive. -/
inductive Step (address : Address) : Dialogue → Dialogue → Prop where
  | connect (w : Dialogue) (nonce : Nonce) : Step address w (w.connect nonce)
  | client (w : Dialogue) (c : Client) (does : Client.Does w.client c) :
      Step address w { w with client := c }
  | server (w : Dialogue) (s : Server) (does : Server.Does w.server s) :
      Step address w { w with server := s }
  | up (w : Dialogue) (d : Datagram) (sent : d ∈ w.client.transport.sent) :
      Step address w (w.up address d.bytes)
  | down (w : Dialogue) (d : Datagram) (sent : d ∈ w.server.transport.sent)
      (own : d.target = address) :
      Step address w (w.down d.bytes)

inductive Run (address : Address) (w₀ : Dialogue) : Dialogue → Prop where
  | start : Run address w₀ w₀
  | next {w w' : Dialogue} : Run address w₀ w → Step address w w' → Run address w₀ w'

/-- The server is honest, what has reached the client came from it, and a registered client goes by
one of the ids that have reached it. -/
structure Sound (address : Address) (w : Dialogue) : Prop where
  honest : w.server.Honest address w.opened
  known : w.told ⊆ w.opened
  self : w.client.state.isRegistered = true → ∃ j ∈ w.told, w.client.id = some j

section
variable {address : Address} {w w' : Dialogue}

theorem Sound.calm (h : w.Sound address) {c : Client} (calm : Client.Calm w.client c) :
    c.state.isRegistered = true → ∃ j ∈ w.told, c.id = some j := by
  intro registered
  obtain ⟨before, same⟩ := calm registered
  rw [same]
  exact h.self before

theorem Sound.down (h : w.Sound address) {d : Datagram} (sent : d ∈ w.server.transport.sent) :
    (w.down d.bytes).Sound address := by
  refine ⟨h.honest, ?_, ?_⟩
  · intro j told
    rcases List.mem_append.1 told with old | new
    · exact h.known old
    · exact h.honest.sent d sent j (Option.mem_toList.1 new)
  · intro registered
    rcases w.client.calm_takeDatagram d.bytes with calm | ⟨j, tells, taken⟩
    · obtain ⟨j, told, same⟩ := h.calm calm registered
      exact ⟨j, List.mem_append_left _ told, same⟩
    · exact ⟨j, List.mem_append_right _ (Option.mem_toList.2 tells), taken⟩

theorem step_sound (step : Step address w w') (h : w.Sound address) : w'.Sound address := by
  cases step with
  | connect nonce => exact ⟨h.honest, List.nil_subset _, nofun⟩
  | client c does => exact ⟨h.honest, h.known, h.calm does.mute.calm⟩
  | server s does => exact ⟨does.honest h.honest, h.known, h.self⟩
  | up d sent =>
    exact ⟨h.honest.route d.bytes, List.Subset.trans h.known (List.subset_append_left _ _), h.self⟩
  | down d sent own => exact h.down sent

theorem sound_start (clientConfig : ClientConfig) (serverConfig : ServerConfig)
    (serverAddress : Address) :
    (start clientConfig serverConfig serverAddress).Sound address :=
  ⟨Server.honest_start serverConfig address, List.nil_subset _, nofun⟩

theorem Run.sound {w₀ : Dialogue} (run : Run address w₀ w) (start : w₀.Sound address) :
    w.Sound address := by
  induction run with
  | start => exact start
  | next _ step ih => exact step_sound step ih

end

/-- However datagrams are lost, repeated, delayed and reordered: when the client is registered and a
connection is live, this is the newest connection, and the client goes by an id that has reached it
since it last connected, either that of this connection or that of an earlier one, which is closed
by then. -/
theorem id_of_registered (clientConfig : ClientConfig) (serverConfig : ServerConfig)
    (serverAddress address : Address) {w : Dialogue}
    (run : Run address (start clientConfig serverConfig serverAddress) w)
    (registered : w.client.state.isRegistered = true) {k : ConnectionId} {c : Connection}
    (live : w.server.connection? k = some c) :
    w.opened.getLast? = some k ∧ ∃ j ∈ w.told, w.client.id = some j ∧
      (j = k ∨ j ∈ w.opened.dropLast ∧ w.server.connection? j = none) := by
  have h := run.sound (sound_start clientConfig serverConfig serverAddress)
  have newest := h.honest.newest live
  obtain ⟨j, told, goes⟩ := h.self registered
  refine ⟨newest, j, told, goes, ?_⟩
  by_cases same : j = k
  · exact .inl same
  · right
    constructor
    · have known := h.known told
      rw [← List.dropLast_append_getLast? k newest] at known
      rcases List.mem_append.1 known with early | last
      · exact early
      · exact absurd (List.mem_singleton.1 last) same
    · cases other : w.server.connection? j with
      | none => rfl
      | some c' =>
        have newest' := h.honest.newest other
        rw [newest] at newest'
        exact absurd (Option.some.inj newest').symm same

/-- One connection, whose id the client hears and confirms. -/
theorem id_of_registered_once :
    let serverAddress : Address := ⟨.v4 167772161, 7000⟩
    let address : Address := ⟨.v4 167772162, 50000⟩
    ∃ w c, Run address (start {} {} serverAddress) w ∧ w.client.state.isRegistered = true ∧
      w.server.connection? 1 = some c ∧ w.opened.getLast? = some 1 ∧ w.client.id = some 1 ∧
      w.confirmed = [(1, .registered 1)] := by
  intro serverAddress address
  have begun : Run address (start {} {} serverAddress) _ := .start
  have asked := (begun.next (.connect _ 7)).next
    (.up _ ⟨serverAddress, datagramOf (helloOf 0 7)⟩ (by decide +kernel))
  have told := (asked.next (.server _ _ (.sweep _ [1]))).next
    (.down _ ⟨address, datagramOf (welcomeOf 1)⟩ (by decide +kernel) rfl)
  have run := told.next
    (.up _ ⟨serverAddress, datagramOf (.numbered 1 (.control (.numbered 0 .confirm true)))⟩
      (by decide +kernel))
  obtain ⟨newest, j, _, goes, own⟩ := id_of_registered {} {} serverAddress address run
    (by decide +kernel) (k := 1) (Option.some_get (by decide +kernel)).symm
  refine ⟨_, _, run, by decide +kernel, (Option.some_get (by decide +kernel)).symm, newest, ?_,
    by decide +kernel⟩
  rcases own with rfl | ⟨early, _⟩
  · exact goes
  · exact absurd early (List.eq_nil_iff_forall_not_mem.1 (by decide +kernel) j)

/-- The server gives up the first connection and opens a second one at the client's second hello;
then the first connection's id reaches the client, and what the client confirms is taken for the id
of the second. -/
theorem mistaken_id_confirmed :
    let serverAddress : Address := ⟨.v4 167772161, 7000⟩
    let address : Address := ⟨.v4 167772162, 50000⟩
    ∃ w, Run address (start {} {} serverAddress) w ∧ w.client.state = .registered ∧
      (w.server.connection? 2).map Connection.identity = some (2, w.client.nonce, [address]) ∧
      (2, .registered 2) ∈ w.confirmed ∧ w.client.id = some 1 := by
  intro serverAddress address
  have begun : Run address (start {} {} serverAddress) _ := .start
  have asked := (begun.next (.connect _ 7)).next
    (.up _ ⟨serverAddress, datagramOf (helloOf 0 7)⟩ (by decide +kernel))
  have posted := asked.next (.server _ _ (.sweep _ [1]))
  have silent := posted.next (.client _ _ (.elapse _ (milliseconds 2000)))
  have again :=
    (silent.next (.client _ _ (.update _))).next (.server _ _ (.elapse _ (milliseconds 2001)))
  have closed := again.next (.server _ _ (.sweep _ [1]))
  have reopened := closed.next (.up _ ⟨serverAddress, datagramOf (helloOf 1 7)⟩ (by decide +kernel))
  have late := reopened.next (.down _ ⟨address, datagramOf (welcomeOf 1)⟩ (by decide +kernel) rfl)
  have run := late.next
    (.up _ ⟨serverAddress, datagramOf (.numbered 2 (.control (.numbered 0 .confirm true)))⟩
      (by decide +kernel))
  exact ⟨_, run, by decide +kernel, by decide +kernel, by decide +kernel, by decide +kernel⟩

end Dialogue
end DatagramSession
