import DatagramSession.Proofs.Meetings
/-!
# Recovery from losses

A round is a sweep of which nothing is lost: what the server sends arrives, and so does what the
client sends in answer.  A round takes one control message out of a queue that was given the welcome
(`Round.confirms`), for the client answers the frame that is up, whether or not it has applied it
before.  Main statement: `ready_of_rounds`, two rounds make a client ready.
-/
namespace DatagramSession

namespace Client

variable {c : Client} {bytes : List UInt8} {f : ControlFrame}

theorem refuses_takeControl (c : Client) (f : ControlFrame) :
    (c.takeControl f).transport.refuses = c.transport.refuses := by
  cases asks : f.confirms with
  | true =>
    rw [transport_takeControl c asks]
    exact Transport.refuses_send _ _ _
  | false => rw [(takeControl_of_unasked asks).1]

/-- The link of a client does not change by what arrives. -/
theorem refuses_takeDatagram (c : Client) (source : Address) (bytes : List UInt8) :
    (c.takeDatagram source bytes).transport.refuses = c.transport.refuses := by
  unfold takeDatagram
  split
  · rfl
  · split
    case h_1 => rfl
    case h_2 p _ =>
      split
      case isFalse => rfl
      case isTrue =>
        obtain ⟨header, body⟩ := p
        cases body with
        | control f => exact refuses_takeControl _ f
        | envelope e => exact congrArg Transport.refuses (takeEnvelope_keeps _ e).2
        | disconnect => exact congrArg Transport.refuses (transport_close _ _)
        | register => rfl

theorem sent_grows_takeDatagram (c : Client) (bytes : List UInt8) :
    c.transport.sent <+: (c.takeDatagram c.server bytes).transport.sent := by
  cases frame : Wire.frame? bytes with
  | none => exact (c.mute_takeDatagram c.server frame).grows
  | some f =>
    by_cases off : c.state = .disconnected
    · rw [takeDatagram_of_disconnected off]
    · rw [takeDatagram_of_frame frame off]
      cases asks : f.confirms with
      | false => rw [(takeControl_of_unasked asks).1]
      | true =>
        rw [transport_takeControl _ asks]
        exact sent_prefix_send { c with lastReceived := c.now } _

end Client

namespace Server

variable {s : Server} {k : ConnectionId} {c : Connection}

theorem ids_eq_singleton (live : (s.connection? k).isSome = true)
    (only : ∀ j, (s.connection? j).isSome = true → j = k) : s.ids = [k] := by
  have perm : s.ids.Perm [k] := by
    apply (List.perm_ext_iff_of_nodup s.lobby.registry.connections.unique (by simp)).2
    intro j
    rw [List.mem_singleton]
    constructor
    · intro mem
      exact only j (Table.mem_keys_iff.1 mem)
    · rintro rfl
      exact Table.mem_keys_iff.2 live
  exact List.perm_singleton.1 perm

/-- Whoever was heard in time stays, and is sent what waits. -/
theorem sweep_of_singleton (ids : s.ids = [k]) (live : s.connection? k = some c) (own : c.id = k)
    (timely : c.isTimedOut s.now s.config.livenessTimeout = false) :
    (s.sweep.2.connection? k).isSome = true ∧
    s.sweep.2.transport = match c.control.head? with
      | none => s.transport
      | some f => (s.sendTo c (.control f)).2.transport := by
  have swept : (sweepOne ({}, s) k).2 = match c.control.head? with
      | none => s
      | some f => (s.sendTo c (.control f)).2 := by
    simp only [sweepOne, live, timely, Bool.false_eq_true, if_false]
    cases c.control.head? with
    | none => rfl
    | some f =>
      dsimp only
      split
      case h_1 n s' result => exact (congrArg Prod.snd result).symm
      case h_2 e s' result => exact (congrArg Prod.snd result).symm
  have still : ((sweepOne ({}, s) k).2.connection? k).isSome = true := by
    rw [swept]
    cases c.control.head? with
    | none => exact Option.isSome_iff_exists.2 ⟨c, live⟩
    | some f =>
      have sent : (s.sendTo c (.control f)).2.connection? k = some c.nextSequence.2 := by
        show { s with lobby := s.lobby.modify c.id fun c => c.nextSequence.2 }.connection? k = _
        rw [connection?_modify, if_pos own, live]
        rfl
      exact Option.isSome_iff_exists.2 ⟨_, sent⟩
  have kept : s.sweep.2.transport = (sweepOne ({}, s) k).2.transport := by
    simp only [sweep, sweepIn, ids, List.foldl_cons, List.foldl_nil]
  have registry : ∃ pending tokens, s.sweep.2.lobby.registry =
      { (sweepOne ({}, s) k).2.lobby.registry with pending, tokens } := by
    let s' := (sweepOne ({}, s) k).2
    obtain ⟨pending, tokens, same, _⟩ :=
      s'.lobby.registry.expirePending_eq s'.now s'.config.livenessTimeout
    refine ⟨pending, tokens, ?_⟩
    rw [← same]
    simp only [sweep, sweepIn, ids, List.foldl_cons, List.foldl_nil, Lobby.expirePending, s']
  constructor
  · obtain ⟨pending, tokens, same⟩ := registry
    rw [connection?, same]
    exact still
  · rw [kept, swept]
    cases c.control.head? <;> rfl

end Server

namespace Handshake

/-- The server sweeps. -/
def sweep (w : Handshake) : Handshake :=
  { w with server := w.server.sweep.2 }

/-- Datagrams that were sent at some time arrive, and time passes.  The lists hold what has arrived
at the client and what at the server. -/
inductive Traffic (address : Address) (w : Handshake) :
    List Datagram → List Datagram → Handshake → Prop where
  | none : Traffic address w [] [] w
  | down {w' : Handshake} {downs ups : List Datagram} (before : Traffic address w downs ups w')
      (d : Datagram) (sent : d ∈ w'.server.transport.sent) :
      Traffic address w (d :: downs) ups (w'.down d.bytes)
  | up {w' : Handshake} {downs ups : List Datagram} (before : Traffic address w downs ups w')
      (d : Datagram) (sent : d ∈ w'.client.transport.sent) :
      Traffic address w downs (d :: ups) (w'.up address d.bytes)
  | clientWaits {w' : Handshake} {downs ups : List Datagram}
      (before : Traffic address w downs ups w') (t : Duration) :
      Traffic address w downs ups { w' with client := w'.client.elapse t }
  | serverWaits {w' : Handshake} {downs ups : List Datagram}
      (before : Traffic address w downs ups w') (t : Duration) :
      Traffic address w downs ups { w' with server := w'.server.elapse t }

/-- A sweep of which nothing is lost.  Whoever is connected was heard in time; what the server sends
arrives at the client, and what the client sends from then on arrives at the server.  Any datagrams
may arrive besides, at any time. -/
inductive Round (address : Address) (w : Handshake) : Handshake → Prop where
  | intro {w₀ w₁ w₂ : Handshake} {downs ups downs' ups' downs'' ups'' : List Datagram}
      (before : Traffic address w downs ups w₀)
      (timely : ∀ c ∈ w₀.server.lobby.registry.connections.values,
        c.isTimedOut w₀.server.now w₀.server.config.livenessTimeout = false)
      (told : Traffic address w₀.sweep downs' ups' w₁)
      (heard : ∀ d ∈ w₀.sweep.server.transport.sent.drop w₀.server.transport.sent.length,
        d ∈ downs')
      (answered : Traffic address w₁ downs'' ups'' w₂)
      (taken : ∀ d ∈ w₁.client.transport.sent.drop w₀.client.transport.sent.length, d ∈ ups'') :
      Round address w w₂

theorem exists_downs (address : Address) (w : Handshake) (ds : List Datagram)
    (sent : ∀ d ∈ ds, d ∈ w.server.transport.sent) :
    ∃ w', Traffic address w ds [] w' ∧ w'.server = w.server := by
  induction ds with
  | nil => exact ⟨w, .none, rfl⟩
  | cons d ds ih =>
    obtain ⟨w', traffic, same⟩ := ih fun d' mem => sent d' (List.mem_cons_of_mem d mem)
    refine ⟨w'.down d.bytes, traffic.down d ?_, (server_down _ _).trans same⟩
    rw [same]
    exact sent d List.mem_cons_self

theorem exists_ups (address : Address) (w : Handshake) (ds : List Datagram)
    (sent : ∀ d ∈ ds, d ∈ w.client.transport.sent) :
    ∃ w', Traffic address w [] ds w' ∧ w'.client = w.client := by
  induction ds with
  | nil => exact ⟨w, .none, rfl⟩
  | cons d ds ih =>
    obtain ⟨w', traffic, same⟩ := ih fun d' mem => sent d' (List.mem_cons_of_mem d mem)
    refine ⟨w'.up address d.bytes, traffic.up d ?_, same⟩
    rw [same]
    exact sent d List.mem_cons_self

/-- There is a round whenever everybody was heard in time. -/
theorem exists_round (address : Address) (w : Handshake)
    (timely : ∀ c ∈ w.server.lobby.registry.connections.values,
      c.isTimedOut w.server.now w.server.config.livenessTimeout = false) :
        ∃ w', Round address w w' := by
  obtain ⟨w₁, told, _⟩ := exists_downs address w.sweep _ fun _ => List.mem_of_mem_drop
  obtain ⟨w₂, answered, _⟩ := exists_ups address w₁ _ fun _ => List.mem_of_mem_drop
  exact ⟨w₂, .intro .none timely told (fun _ posted => posted) answered fun _ replied => replied⟩

/-- The links refuse nothing. -/
def Clear (w : Handshake) : Prop :=
  ∀ d, w.server.transport.refuses d = false ∧ w.client.transport.refuses d = false

/-- A state of a run in which client and server have met on clear links and so many control messages
are confirmed. -/
structure Confirms (address : Address) (k : ConnectionId) (n : Nat) (w : Handshake) : Prop where
  run : ∃ clientConfig serverConfig serverAddress,
    Run address (start clientConfig serverConfig serverAddress) w
  meets : w.Meets k
  clear : w.Clear
  confirmed : ∃ c, w.server.connection? k = some c ∧ n ≤ c.control.number.toNat

section
variable {address : Address} {k : ConnectionId} {n m : Nat} {w w' : Handshake} {d : Datagram}

theorem Confirms.sound (h : Confirms address k n w) : w.Sound address := by
  obtain ⟨_, _, _, run⟩ := h.run
  exact run.sound (sound_start _ _ _)

theorem Confirms.civil (h : Confirms address k n w) : w.Civil := by
  obtain ⟨_, _, _, run⟩ := h.run
  exact run.civil h.meets.calm

theorem Confirms.polite (h : Confirms address k n w) : w.Polite := by
  obtain ⟨_, _, _, run⟩ := h.run
  exact run.polite h.meets.calm h.meets.engaged

theorem Confirms.mono (h : Confirms address k n w) (le : m ≤ n) : Confirms address k m w := by
  obtain ⟨c, live, confirmed⟩ := h.confirmed
  exact ⟨h.run, h.meets, h.clear, c, live, Nat.le_trans le confirmed⟩

theorem Confirms.step (h : Confirms address k n w) (step : Step address w w') (meets : w'.Meets k)
    (server : w'.server.transport.refuses = w.server.transport.refuses)
    (client : w'.client.transport.refuses = w.client.transport.refuses) :
    Confirms address k n w' := by
  obtain ⟨clientConfig, serverConfig, serverAddress, run⟩ := h.run
  obtain ⟨c₀, before, confirmed⟩ := h.confirmed
  obtain ⟨c, live⟩ := Option.isSome_iff_exists.1 meets.live
  have more := meets.number_le h.sound h.civil step before live
  constructor
  case run => exact ⟨clientConfig, serverConfig, serverAddress, run.next step⟩
  case meets => exact meets
  case clear =>
    intro d
    rw [server, client]
    exact h.clear d
  case confirmed => exact ⟨c, live, Nat.le_trans confirmed more⟩

theorem Confirms.down (h : Confirms address k n w) (sent : d ∈ w.server.transport.sent) :
    Confirms address k n (w.down d.bytes) := by
  have meets := h.meets.down h.sound h.civil h.polite sent
  apply h.step (.down w d sent) meets
  · rw [server_down]
  · rw [client_down]
    exact w.client.refuses_takeDatagram w.client.server d.bytes

theorem Confirms.up (h : Confirms address k n w) (sent : d ∈ w.client.transport.sent) :
    Confirms address k n (w.up address d.bytes) := by
  have meets := h.meets.up h.sound h.civil h.polite sent
  apply h.step (.up w d sent) meets
  · rw [transport_up meets.admitted]
  · rfl

theorem Confirms.traffic {downs ups : List Datagram} (traffic : Traffic address w downs ups w')
    (h : Confirms address k n w) : Confirms address k n w' := by
  induction traffic with
  | none => exact h
  | down before d sent ih => exact ih.down sent
  | up before d sent ih => exact ih.up sent
  | clientWaits before t ih =>
    have meets := ih.meets
    exact ih.step (.client _ _ (.elapse _ t))
      ⟨meets.once, meets.on, meets.opened, meets.live, meets.unqueued, meets.admitted⟩ rfl rfl
  | serverWaits before t ih =>
    exact ih.step (.server _ _ (.elapse _ t)) (ih.meets.server ih.meets.live) rfl rfl

/-! ## Sweeps -/

theorem Confirms.ids (h : Confirms address k n w) : w.server.ids = [k] := by
  apply Server.ids_eq_singleton h.meets.live
  intro j live
  obtain ⟨c, own⟩ := Option.isSome_iff_exists.1 h.meets.live
  obtain ⟨c', other⟩ := Option.isSome_iff_exists.1 live
  exact h.sound.only other own

/-- A sweep in time keeps the connection, and the control message that waits goes out. -/
theorem Confirms.sweep (h : Confirms address k n w) {c : Connection}
    (live : w.server.connection? k = some c)
    (timely : c.isTimedOut w.server.now w.server.config.livenessTimeout = false) :
    Confirms address k n w.sweep ∧ ∀ f, c.control.head? = some f →
      ∃ d, Wire.frame? d.bytes = some f ∧
      w.sweep.server.transport.sent = w.server.transport.sent ++ [d] := by
  obtain ⟨stays, transport⟩ :=
    Server.sweep_of_singleton h.ids live (h.sound.honest.keyed k c live) timely
  constructor
  · apply h.step (.server _ _ (.sweep w.server w.server.ids)) (h.meets.server stays) _ rfl
    show w.server.sweep.2.transport.refuses = _
    rw [transport]
    split
    · rfl
    · exact Transport.refuses_send _ _ _
  · intro f head
    have greets := (h.civil.queue k c live).head head
    obtain ⟨bytes, encoded⟩ := Wire.encode_control c.sequence (f := f) (by cases greets <;> nofun)
    refine ⟨⟨c.address, bytes⟩, Wire.frame?_eq_some_of_encode encoded, ?_⟩
    rw [Handshake.sweep, transport, head]
    exact congrArg (·.2.sent) (Transport.send_of_encode encoded (h.clear _).1)

/-! ## Answers -/

theorem Traffic.grows {downs ups : List Datagram} (traffic : Traffic address w downs ups w') :
    w.client.transport.sent <+: w'.client.transport.sent := by
  induction traffic with
  | none => exact List.prefix_rfl
  | @down w' _ _ before d sent ih =>
    rw [client_down]
    exact ih.trans (w'.client.sent_grows_takeDatagram d.bytes)
  | up _ _ _ ih | clientWaits _ _ ih | serverWaits _ _ ih => exact ih

/-- The client answers every frame that arrives. -/
theorem Traffic.answer {downs ups : List Datagram} (traffic : Traffic address w downs ups w')
    (h : Confirms address k n w) (arrived : d ∈ downs) {f : ControlFrame}
    (frame : Wire.frame? d.bytes = some f) (asks : f.confirms = true) :
    ∃ reply ∈ w'.client.transport.sent.drop w.client.transport.sent.length,
      Wire.frame? reply.bytes = some (.numbered f.order .confirm true) := by
  induction traffic with
  | none => cases arrived
  | @down w' _ _ before d' sent ih =>
    rw [client_down]
    rcases List.mem_cons.1 arrived with rfl | earlier
    · have now := h.traffic before
      have heard : w'.client.hears? d.bytes = some f :=
        Client.hears?_eq_some.2 ⟨now.meets.on, frame, asks⟩
      obtain ⟨reply, confirms, more⟩ := Client.reply_of_hears? heard fun d => (now.clear d).2
      refine ⟨reply, ?_, confirms⟩
      rw [more, List.drop_append_of_le_length before.grows.length_le]
      exact List.mem_append_right _ (List.mem_singleton_self reply)
    · obtain ⟨reply, since, confirms⟩ := ih earlier
      exact ⟨reply, ((w'.client.sent_grows_takeDatagram d'.bytes).drop _).subset since, confirms⟩
  | up _ _ _ ih | clientWaits _ _ ih | serverWaits _ _ ih => exact ih arrived

/-- The confirmation of the frame that is up. -/
theorem Confirms.confirm (h : Confirms address k n w) (sent : d ∈ w.client.transport.sent)
    {o : OrderNumber} (frame : Wire.frame? d.bytes = some (.numbered o .confirm true))
    (number : o.toNat = n) :
    Confirms address k (n + 1) (w.up address d.bytes) := by
  obtain ⟨c, live, confirmed⟩ := h.confirmed
  by_cases more : n + 1 ≤ c.control.number.toNat
  · have already : Confirms address k (n + 1) w := ⟨h.run, h.meets, h.clear, c, live, more⟩
    exact already.up sent
  · have up := h.up sent
    obtain ⟨g, same, shown, _, c', live', accepted⟩ :=
      h.meets.route_answer h.sound h.civil sent frame live
    cases same
    have head : c.control.head? = some g := by
      apply shown.resolve_left
      intro used
      have number : g.order.toNat = n := number
      omega
    refine ⟨up.run, up.meets, up.clear, c', live', ?_⟩
    have orderly := h.sound.orderly h.meets.calm.brief k c live
    rw [accepted, ((h.civil.queue k c live).accept orderly.tidy h.meets.calm.brief.2 shown).2,
      if_pos head]
    omega

theorem Traffic.take {downs ups : List Datagram} (traffic : Traffic address w downs ups w')
    (h : Confirms address k n w) (arrived : d ∈ ups) {o : OrderNumber}
    (frame : Wire.frame? d.bytes = some (.numbered o .confirm true)) (number : o.toNat = n) :
    Confirms address k (n + 1) w' := by
  induction traffic with
  | none => cases arrived
  | up before d' sent ih =>
    rcases List.mem_cons.1 arrived with rfl | earlier
    · exact (h.traffic before).confirm sent frame number
    · exact (ih earlier).up sent
  | down before d' sent ih => exact (ih arrived).down sent
  | clientWaits before t ih => exact (ih arrived).traffic (.clientWaits .none t)
  | serverWaits before t ih => exact (ih arrived).traffic (.serverWaits .none t)

/-- A round confirms one more control message, until both are confirmed. -/
theorem Round.confirms (round : Round address w w') (h : Confirms address k n w) :
    Confirms address k (min (n + 1) 2) w' := by
  obtain @⟨w₀, w₁, _, _, _, _, _, _, _, before, timely, told, heard, answered, taken⟩ := round
  have h₀ := h.traffic before
  obtain ⟨c, live, confirmed⟩ := h₀.confirmed
  have h₀ : Confirms address k c.control.number.toNat w₀ :=
    ⟨h₀.run, h₀.meets, h₀.clear, c, live, Nat.le_refl _⟩
  obtain ⟨swept, posted⟩ := h₀.sweep live (timely c (Table.mem_values_iff.2 ⟨k, live⟩))
  have told₁ := swept.traffic told
  by_cases few : c.control.number.toNat < 2
  · have welcomes := h₀.civil.queue k c live
    obtain ⟨f, head⟩ := welcomes.waits few
    obtain ⟨d, frame, more⟩ := posted f head
    have asks := (welcomes.head head).asks
    have posted : d ∈ w₀.sweep.server.transport.sent.drop w₀.server.transport.sent.length := by
      rw [more, List.drop_left]
      exact List.mem_singleton_self d
    obtain ⟨reply, since, confirms⟩ := told.answer swept (heard d posted) frame asks
    have number := congrArg UInt32.toNat (ControlQueue.order_of_head? head)
    apply (answered.take told₁ (taken reply since) confirms number).mono
    omega
  · apply (told₁.traffic answered).mono
    omega

end

/-- However registrations, control frames, confirmations and envelopes were lost, repeated, delayed
and reordered before: once a client that has connected once meets a server that has let it in, two
rounds make the client ready, under the id of its connection, and leave nothing for it to
confirm. -/
theorem ready_of_rounds (clientConfig : ClientConfig) (serverConfig : ServerConfig)
    (serverAddress address : Address) {w w₁ w₂ : Handshake}
    (run : Run address (start clientConfig serverConfig serverAddress) w) {k : ConnectionId}
    (meets : w.Meets k) (clear : w.Clear) (first : Round address w w₁)
    (second : Round address w₁ w₂) :
    w₂.client.state = .ready ∧ w₂.client.id = some k ∧
      ∃ c, w₂.server.connection? k = some c ∧ c.control.waiting = [] := by
  obtain ⟨c, live⟩ := Option.isSome_iff_exists.1 meets.live
  have begun : Confirms address k 0 w := ⟨⟨_, _, _, run⟩, meets, clear, c, live, Nat.zero_le _⟩
  have done : Confirms address k 2 w₂ := second.confirms (first.confirms begun)
  obtain ⟨c, live, confirmed⟩ := done.confirmed
  have polite := done.polite
  have greeted : w₂.client.Greeted [k] := done.meets.opened ▸ polite.greeted
  obtain ⟨ready, id⟩ := greeted.ready (Nat.le_trans confirmed (polite.behind k c live))
  refine ⟨ready, id, c, live, ?_⟩
  cases done.civil.queue k c live with
  | names _ number | serves _ number =>
    rw [number] at confirmed
    exact absurd confirmed (by decide)
  | done waiting => exact waiting

/-- The second hello arrives late, a sweep and a confirmation are lost, and a lost confirmation
turns up again. -/
theorem ready_of_rounds_lossy :
    let serverAddress : Address := ⟨.v4 167772161, 7000⟩
    let address : Address := ⟨.v4 167772162, 50000⟩
    ∃ w w₁ w₂, Run address (start {} {} serverAddress) w ∧ w.Meets 1 ∧ w.Clear ∧
      Round address w w₁ ∧
      Round address w₁ w₂ ∧ w.client.state = .registered ∧ w₂.client.state = .ready ∧
      w₂.client.id = some 1 ∧
      ∃ c, w₂.server.connection? 1 = some c ∧ c.control.waiting = [] := by
  intro serverAddress address
  let greeting (sequence : UInt32) (order : OrderNumber) (m : ControlMessage) : Datagram :=
    ⟨address, Sessions.datagramOf (.numbered sequence (.control (.numbered order m true)))⟩
  let reply (sequence : UInt32) (order : OrderNumber) : Datagram :=
    ⟨serverAddress, Sessions.datagramOf
      (.numbered sequence (.control (.numbered order .confirm true)))⟩
  let hello (sequence : UInt32) : Datagram :=
    ⟨serverAddress, Sessions.datagramOf (Sessions.helloOf sequence 7)⟩
  have begun : Run address (start {} {} serverAddress) _ := .start
  have waited := (begun.next (.connect _ 7)).next (.client _ _ (.elapse _ (milliseconds 2000)))
  have asked := (waited.next (.client _ _ (.update _))).next (.up _ (hello 0) (by decide +kernel))
  have lost := asked.next (.server _ _ (.sweep _ [1]))
  have told := (lost.next (.server _ _ (.sweep _ [1]))).next
    (.down _ (greeting 1 0 (.registered 1)) (by decide +kernel))
  have run := (told.next (.server _ _ (.relink _ fun _ => false))).next
    (.client _ _ (.relink _ fun _ => false))
  have rounds : ∃ w w₁ w₂, Run address (start {} {} serverAddress) w ∧ w.Meets 1 ∧ w.Clear ∧
      Round address w w₁ ∧
      Round address w₁ w₂ ∧ w.client.state = .registered :=
    ⟨_, _, _, run, ⟨by decide +kernel, by decide +kernel, by decide +kernel, by decide +kernel,
      by decide +kernel, by decide +kernel⟩, fun _ => ⟨rfl, rfl⟩,
      .intro (.up .none (hello 1) (by decide +kernel)) (by decide +kernel)
        (.down .none (greeting 2 0 (.registered 1)) (by decide +kernel)) (by decide +kernel)
        (.up (.up .none (reply 3 0) (by decide +kernel)) (reply 2 0) (by decide +kernel))
        (by decide +kernel),
      .intro .none (by decide +kernel)
      (.down .none (greeting 3 1 .servicesReady) (by decide +kernel))
        (by decide +kernel) (.up .none (reply 4 1) (by decide +kernel)) (by decide +kernel),
        by decide +kernel⟩
  obtain ⟨w, w₁, w₂, run, meets, clear, first, second, registered⟩ := rounds
  obtain ⟨ready, id, none⟩ :=
    ready_of_rounds {} {} serverAddress address run meets clear first second
  exact ⟨w, w₁, w₂, run, meets, clear, first, second, registered, ready, id, none⟩

end Handshake

end DatagramSession
