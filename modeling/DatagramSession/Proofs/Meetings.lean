import DatagramSession.Proofs.Welcomes
/-!
# Meetings

A client that has connected once meets a server that has let it in and keeps it (`Handshake.Meets`).
Whatever the network did to their datagrams, the server has told the client nothing but its welcome
(`Civil`), the client has heard nothing else, and it is not behind the server (`Polite`).  Main
statements: `Run.civil` and `Run.polite`, this holds of every run, and `Meets.up`, `Meets.down`,
datagrams that arrive leave the two as they are.
-/
namespace DatagramSession.Handshake

variable {address : Address} {w w' : Handshake} {k : ConnectionId}

/-! ## The server -/

/-- The host has queued nothing, nobody was turned away, and whoever was let in is still there. -/
structure Calm (w : Handshake) : Prop where
  unqueued : w.queued = []
  admitted : .rejected ∉ w.routed
  stays : w.opened = [] ∨ ∃ k, w.opened = [k] ∧ (w.server.connection? k).isSome = true

theorem Calm.brief (calm : w.Calm) : w.Brief := by
  constructor
  · rcases calm.stays with none | ⟨k, one, _⟩
    · simp [none]
    · simp [one]
  · rw [calm.unqueued]
    decide

theorem routed_grows (step : Step address w w') : w.routed <+: w'.routed := by
  cases step with
  | connect | client | server | kick | tell => exact List.prefix_rfl
  | up => exact List.prefix_append _ _
  | down d sent =>
    obtain ⟨applied, answers, same⟩ := w.down_eq d.bytes
    rw [same]

theorem Calm.before (calm : w'.Calm) (h : w.Sound address) (step : Step address w w') : w.Calm := by
  constructor
  case unqueued =>
    have queued := queued_grows step
    rw [calm.unqueued] at queued
    exact List.prefix_nil.1 queued
  case admitted =>
    intro turned
    exact calm.admitted ((routed_grows step).subset turned)
  case stays =>
    have first := opened_grows step
    rcases calm.stays with none | ⟨k, one, live⟩
    · rw [none] at first
      exact .inl (List.prefix_nil.1 first)
    · obtain ⟨c, live⟩ := Option.isSome_iff_exists.1 live
      rcases step_follows h step live with ⟨opened, _⟩ | ⟨c₀, before, _⟩
      · rw [one] at opened
        exact .inl (by simpa using opened)
      · have newest := List.mem_of_getLast? (h.honest.newest before)
        rw [one] at first
        rcases List.prefix_cons_iff.1 first with none | ⟨rest, same, nil⟩
        · exact .inl none
        · rw [List.prefix_nil.1 nil] at same
          exact .inr ⟨k, same, Option.isSome_iff_exists.2 ⟨c₀, before⟩⟩

/-- Nothing that arrives is answered at once, a hello that is turned away apart. -/
theorem transport_up {bytes : List UInt8} (admitted : .rejected ∉ (w.up address bytes).routed) :
    (w.up address bytes).server.transport = w.server.transport := by
  apply Server.transport_route
  intro turned
  exact admitted (List.mem_append_right _ (List.mem_singleton.2 turned.symm))

/-- If the host queues nothing, a queue changes by confirmations of frames that the client has
answered. -/
theorem Follows.calm {q q' : ControlQueue} (follows : Follows w w' q q') (calm : w'.Calm) :
    q' = q ∨ ∃ a ∈ w.answers, q' = (q.accept a.2.order true).2 := by
  cases follows with
  | same => exact .inl rfl
  | push m queued | replace m queued =>
    rw [calm.unqueued] at queued
    cases (List.append_eq_nil_iff.1 queued.symm).2
  | accept a given => exact .inr ⟨a, given, rfl⟩

/-- The server has told the client nothing but its welcome. -/
structure Civil (w : Handshake) : Prop where
  posted : ∀ d ∈ w.server.transport.sent, ∀ p, Wire.decode d.bytes = .ok p →
    (∃ e, p.body = .envelope e) ∨ ∃ k f, w.opened = [k] ∧ f.Greets k ∧ p.body = .control f
  queue : ∀ k c, w.server.connection? k = some c → c.control.Welcomes k

/-- Whatever is live is the only connection that was opened. -/
theorem Calm.opened_of_live (calm : w.Calm) (h : w.Sound address) {c : Connection}
    (live : w.server.connection? k = some c) : w.opened = [k] := by
  have newest := h.honest.newest live
  rcases calm.stays with none | ⟨j, one, _⟩
  · rw [none] at newest
    cases newest
  · rw [one] at newest ⊢
    cases newest
    rfl

theorem Civil.tended (civil : w.Civil) (calm : w.Calm) (h : w.Sound address) {s : Server}
    (tended : Server.Tended False w.server s)
    (stays : w.opened = [] ∨ ∃ k, w.opened = [k] ∧ (s.connection? k).isSome) :
    ∀ d ∈ s.transport.sent, ∀ p, Wire.decode d.bytes = .ok p →
      (∃ e, p.body = .envelope e) ∨ ∃ k f, w.opened = [k] ∧ f.Greets k ∧ p.body = .control f := by
  intro d sent p decoded
  rcases tended.posts d sent with old | ⟨p', encoded, posts⟩
  · exact civil.posted d old p decoded
  · rw [(Wire.decode_of_encode_eq_ok encoded).2] at decoded
    cases decoded
    obtain ⟨header, body⟩ := p
    cases posts with
    | envelope e => exact .inl ⟨e, rfl⟩
    | goodbye live gone =>
      have opened := calm.opened_of_live h live
      rcases stays with none | ⟨j, one, live'⟩
      · rw [none] at opened
        cases opened
      · rw [one] at opened
        cases opened
        rw [gone] at live'
        cases live'
    | head live head =>
      exact .inr ⟨_, _, calm.opened_of_live h live, (civil.queue _ _ live).head head, rfl⟩
    | refusal away => exact away.elim

theorem step_civil (h : w.Sound address) (step : Step address w w') (calm : w'.Calm)
    (civil : w.Civil) : w'.Civil := by
  have before := calm.before h step
  constructor
  case posted =>
    cases step with
    | connect | client | kick | tell => exact civil.posted
    | server s tends => exact civil.tended before h tends.tended calm.stays
    | down d sent =>
      rw [server_down, opened_down]
      exact civil.posted
    | up d sent =>
      intro d' sent' p decoded
      rw [transport_up calm.admitted] at sent'
      rcases civil.posted d' sent' p decoded with envelope | ⟨k, f, one, greets, body⟩
      · exact .inl envelope
      · refine .inr ⟨k, f, ?_, greets, body⟩
        have single : (w.up address d.bytes).opened.length ≤ w.opened.length := one ▸ calm.brief.1
        rw [← (Handshake.opened_grows (.up w d sent)).eq_of_length_le single]
        exact one
  case queue =>
    intro k c live
    rcases step_follows h step live with ⟨opened, fresh⟩ | ⟨c₀, live₀, follows⟩
    · rw [fresh]
      exact .names rfl rfl
    · have welcomes := civil.queue k c₀ live₀
      rcases follows.calm calm with same | ⟨a, given, accepted⟩
      · rw [same]
        exact welcomes
      · have orderly := h.orderly before.brief k c₀ live₀
        rw [accepted]
        exact (welcomes.accept orderly.tidy before.brief.2 (orderly.answered a given).1).1

/-! ## The client -/

/-- A client that has not connected has not done anything. -/
structure Fresh (w : Handshake) : Prop where
  off : w.client.state = .disconnected
  silent : w.client.transport.sent = []
  unheard : w.routed = []

/-- The client has connected once and its session goes on. -/
structure Engaged (w : Handshake) : Prop where
  once : w.nonces.length = 1
  on : w.client.state ≠ .disconnected

/-- The client has heard nothing but its welcome, and the server does not take more for confirmed
than it has heard. -/
structure Polite (w : Handshake) : Prop where
  said : ∀ d ∈ w.client.transport.sent, ∀ p, Wire.decode d.bytes = .ok p → p.body ≠ .disconnect
  greeted : w.client.Greeted w.opened
  behind : ∀ k c, w.server.connection? k = some c → c.control.number.toNat ≤ w.client.heard
  answered : ∀ a ∈ w.answers, a.2.order.toNat < w.client.heard

theorem Fresh.does (fresh : w.Fresh) {c : Client} (does : Client.Does w.client c) :
    ({ w with client := c } : Handshake).Fresh := by
  obtain ⟨off, silent, unheard⟩ := fresh
  cases does with
  | update =>
    exact ⟨by simp [Client.update, off], by simpa [Client.update, off] using silent, unheard⟩
  | disconnect =>
    exact ⟨by simp [Client.disconnect, off], by simpa [Client.disconnect, off] using silent,
      unheard⟩
  | enqueue | addHandler | removeHandler | introduce | takeDeliveries | elapse | relink =>
    exact ⟨off, silent, unheard⟩

theorem step_fresh (step : Step address w w') (fresh : w.nonces = [] → w.Fresh) :
    w'.nonces = [] → w'.Fresh := by
  intro none
  cases step with
  | connect nonce => cases (List.append_eq_nil_iff.1 none).2
  | client c does => exact (fresh none).does does
  | server | kick | tell =>
    obtain ⟨off, silent, unheard⟩ := fresh none
    exact ⟨off, silent, unheard⟩
  | up d sent =>
    rw [(fresh none).silent] at sent
    cases sent
  | down d sent =>
    obtain ⟨applied, answers, same⟩ := w.down_eq d.bytes
    rw [same] at none ⊢
    obtain ⟨off, silent, unheard⟩ := fresh none
    rw [Client.takeDatagram_of_disconnected off]
    exact ⟨off, silent, unheard⟩

/-- The client does something but taking in a frame. -/
theorem Polite.mute (polite : w.Polite) {c : Client} (mute : Client.Mute w.client c)
    (on : c.state ≠ .disconnected) :
    ({ w with client := c } : Handshake).Polite := by
  obtain ⟨state, id⟩ := mute.stays on
  have heard : c.heard = w.client.heard := by rw [Client.heard, mute.keeps]; rfl
  constructor
  case said =>
    intro d sent p decoded goodbye
    rcases mute.plain d sent with old | ⟨p', encoded, _, ended⟩
    · exact polite.said d old p decoded goodbye
    · rw [(Wire.decode_of_encode_eq_ok encoded).2] at decoded
      cases decoded
      exact on (ended goodbye)
  case greeted => exact polite.greeted.of_eq state id mute.keeps
  case behind =>
    intro k c' live
    rw [heard]
    exact polite.behind k c' live
  case answered =>
    intro a given
    rw [heard]
    exact polite.answered a given

theorem polite_connect (h : w.Sound address) (fresh : w.Fresh) (nonce : Nonce) :
    (w.connect nonce).Polite := by
  have none : w.opened = [] := by simp [opened, fresh.unheard]
  constructor
  case said =>
    intro d sent p decoded goodbye
    rcases Transport.mem_sent_send sent with old | encoded
    · have old : d ∈ w.client.transport.sent := old
      rw [fresh.silent] at old
      cases old
    · rw [(Wire.decode_of_encode_eq_ok encoded).2] at decoded
      cases decoded
      cases goodbye
  case greeted => exact .asks rfl rfl
  case behind =>
    intro k c live
    have newest := h.honest.newest live
    rw [none] at newest
    cases newest
  case answered =>
    intro a given
    have given : a ∈ w.answers := given
    rw [(h.untold none).answers] at given
    cases given

/-- The client takes in a frame of its welcome. -/
theorem Polite.hear (polite : w.Polite) (h : w.Sound address) (calm : w.Calm) (civil : w.Civil)
    {d : Datagram} (sent : d ∈ w.server.transport.sent) {f : ControlFrame}
    (frame : Wire.frame? d.bytes = some f) :
    (w.down d.bytes).Polite := by
  obtain ⟨header, decoded, _⟩ := Wire.decode_of_frame? frame
  obtain ⟨k, one, greets⟩ : ∃ k, w.opened = [k] ∧ f.Greets k := by
    rcases civil.posted d sent _ decoded with ⟨e, body⟩ | ⟨k, g, one, greets, body⟩
    · cases body
    · cases body
      exact ⟨k, one, greets⟩
  have asks := greets.asks
  have heard : w.client.hears? d.bytes = some f :=
    Client.hears?_eq_some.2 ⟨polite.greeted.on, frame, asks⟩
  obtain ⟨c, live⟩ : ∃ c, w.server.connection? k = some c := by
    rcases calm.stays with none | ⟨j, own, live⟩
    · rw [none] at one
      cases one
    · rw [own] at one
      cases one
      exact Option.isSome_iff_exists.1 live
  have shown := (h.orderly calm.brief k c live).posted d sent f frame asks
  have le : f.order.toNat ≤ w.client.heard := Nat.le_trans shown.le (polite.behind k c live)
  have taken := Client.takeDatagram_of_frame frame polite.greeted.on
  have greeted : Client.Greeted [k] { w.client with lastReceived := w.client.now } :=
    one ▸ polite.greeted.of_eq rfl rfl rfl
  obtain ⟨greeted, order, more⟩ := greeted.takeControl greets le
  rw [← taken] at greeted order more
  have replied := (w.client.sent_of_hears? heard).1
  unfold Handshake.down
  rw [heard]
  constructor
  case said =>
    intro d' mem p decoded' goodbye
    rcases replied with same | ⟨reply, confirms, longer⟩
    · exact polite.said d' (same ▸ mem) p decoded' goodbye
    · have mem : d' ∈ w.client.transport.sent ++ [reply] := longer ▸ mem
      rcases List.mem_append.1 mem with old | new
      · exact polite.said d' old p decoded' goodbye
      · obtain ⟨_, control, _⟩ := Wire.decode_of_frame? confirms
        rw [List.mem_singleton.1 new, control] at decoded'
        cases decoded'
        cases goodbye
  case greeted => exact one ▸ greeted
  case behind =>
    intro j c' live'
    exact Nat.le_trans (polite.behind j c' live') more
  case answered =>
    intro a given
    rcases List.mem_append.1 given with old | new
    · exact Nat.lt_of_lt_of_le (polite.answered a old) more
    · obtain ⟨_, _, rfl⟩ := List.mem_map.1 new
      exact order

theorem Polite.behind_of_step (polite : w.Polite) (h : w.Sound address) (civil : w.Civil)
    (step : Step address w w') (calm : w'.Calm) {c : Connection}
    (live : w'.server.connection? k = some c) :
    c.control.number.toNat ≤ w.client.heard := by
  rcases step_follows h step live with ⟨_, fresh⟩ | ⟨c₀, before, follows⟩
  · rw [fresh]
    exact Nat.zero_le _
  · have behind := polite.behind k c₀ before
    rcases follows.calm calm with same | ⟨a, given, accepted⟩
    · rw [same]
      exact behind
    · have brief := (calm.before h step).brief
      have orderly := h.orderly brief k c₀ before
      have shown := (orderly.answered a given).1
      rw [accepted, ((civil.queue k c₀ before).accept orderly.tidy brief.2 shown).2]
      split
      case isTrue head =>
        rw [← ControlQueue.order_of_head? head]
        exact polite.answered a given
      case isFalse => exact behind

theorem step_polite (h : w.Sound address) (civil : w.Civil) (fresh : w.nonces = [] → w.Fresh)
    (step : Step address w w') (calm : w'.Calm) (engaged : w'.Engaged)
    (polite : w.Engaged → w.Polite) : w'.Polite := by
  have before := calm.before h step
  have behind (polite : w.Polite) {k : ConnectionId} {c : Connection}
      (live : w'.server.connection? k = some c) :=
    polite.behind_of_step h civil step calm live
  obtain ⟨once, on⟩ := engaged
  cases step with
  | connect nonce =>
    apply polite_connect h (fresh _)
    simpa [connect] using once
  | client c does =>
    have mute := does.mute
    refine (polite ⟨once, ?_⟩).mute mute on
    rw [← (mute.stays on).1]
    exact on
  | server s tends =>
    have polite := polite ⟨once, on⟩
    exact ⟨polite.said, polite.greeted, fun k c live => behind polite live, polite.answered⟩
  | kick | tell =>
    have unqueued := calm.unqueued
    cases (List.append_eq_nil_iff.1 unqueued).2
  | up d sent =>
    have polite := polite ⟨once, on⟩
    have greeted := polite.greeted.of_grown (opened_grows (.up w d sent)) calm.brief.1
    exact ⟨polite.said, greeted, fun k c live => behind polite live, polite.answered⟩
  | down d sent =>
    obtain ⟨applied, answers, same⟩ := w.down_eq d.bytes
    have engaged : w.Engaged := by
      constructor
      · rw [same] at once
        exact once
      · intro off
        rw [same] at on
        exact on ((congrArg Client.state (Client.takeDatagram_of_disconnected off _ _)).trans off)
    have polite := polite engaged
    cases frame : Wire.frame? d.bytes with
    | some f => exact polite.hear h before civil sent frame
    | none =>
      have unheard : w.client.hears? d.bytes = none := by simp [Client.hears?, frame]
      unfold Handshake.down at on ⊢
      rw [unheard] at on ⊢
      exact polite.mute (w.client.mute_takeDatagram w.client.server frame) on

/-! ## Runs -/

section
variable {clientConfig : ClientConfig} {serverConfig : ServerConfig} {serverAddress : Address}

theorem Run.fresh (run : Run address (Handshake.start clientConfig serverConfig serverAddress) w) :
    w.nonces = [] → w.Fresh := by
  induction run with
  | start => exact fun _ => ⟨rfl, rfl, rfl⟩
  | next _ step ih => exact step_fresh step ih

theorem Run.civil (run : Run address (Handshake.start clientConfig serverConfig serverAddress) w)
    (calm : w.Calm) :
    w.Civil := by
  induction run with
  | start => exact ⟨nofun, nofun⟩
  | next before step ih =>
    have h := before.sound (sound_start clientConfig serverConfig serverAddress)
    exact step_civil h step calm (ih (calm.before h step))

theorem Run.polite (run : Run address (Handshake.start clientConfig serverConfig serverAddress) w)
    (calm : w.Calm) (engaged : w.Engaged) : w.Polite := by
  induction run with
  | start => cases engaged.once
  | next before step ih =>
    have h := before.sound (sound_start clientConfig serverConfig serverAddress)
    have calm' := calm.before h step
    exact step_polite h (before.civil calm') before.fresh step calm engaged (ih calm')

end

/-! ## Meetings -/

/-- The client has connected once and its session goes on; the server has let it in once and keeps
it, and the host has queued nothing for it. -/
structure Meets (w : Handshake) (k : ConnectionId) : Prop where
  once : w.nonces.length = 1
  on : w.client.state ≠ .disconnected
  opened : w.opened = [k]
  live : (w.server.connection? k).isSome = true
  unqueued : w.queued = []
  admitted : .rejected ∉ w.routed

theorem Meets.calm (meets : w.Meets k) : w.Calm :=
  ⟨meets.unqueued, meets.admitted, .inr ⟨k, meets.opened, meets.live⟩⟩

theorem Meets.engaged (meets : w.Meets k) : w.Engaged :=
  ⟨meets.once, meets.on⟩

theorem Meets.client (meets : w.Meets k) {c : Client} (on : c.state ≠ .disconnected)
    (applied : List ControlFrame) (answers : List (Datagram × ControlFrame)) :
    ({ w with client := c, applied, answers } : Handshake).Meets k :=
  ⟨meets.once, on, meets.opened, meets.live, meets.unqueued, meets.admitted⟩

theorem Meets.server (meets : w.Meets k) {s : Server} (live : (s.connection? k).isSome = true) :
    ({ w with server := s } : Handshake).Meets k :=
  ⟨meets.once, meets.on, meets.opened, live, meets.unqueued, meets.admitted⟩

/-- What the server has sent does not end the session. -/
theorem Meets.down (meets : w.Meets k) (h : w.Sound address) (civil : w.Civil) (polite : w.Polite)
    {d : Datagram} (sent : d ∈ w.server.transport.sent) : (w.down d.bytes).Meets k := by
  have on : (w.client.takeDatagram w.client.server d.bytes).state ≠ .disconnected := by
    cases frame : Wire.frame? d.bytes with
    | some f =>
      rw [← client_down]
      exact (polite.hear h meets.calm civil sent frame).greeted.on
    | none =>
      rw [w.client.state_takeDatagram w.client.server frame]
      · exact meets.on
      · intro p decoded goodbye
        rcases civil.posted d sent p decoded with ⟨e, body⟩ | ⟨_, f, _, _, body⟩
        · rw [body] at goodbye
          cases goodbye
        · rw [body] at goodbye
          cases goodbye
  obtain ⟨applied, answers, same⟩ := w.down_eq d.bytes
  rw [same]
  exact meets.client on applied answers

/-- The server takes note of the confirmation of a frame that it has shown. -/
theorem Meets.route_answer (meets : w.Meets k) (h : w.Sound address) (civil : w.Civil)
    {d : Datagram} (sent : d ∈ w.client.transport.sent) {f : ControlFrame}
    (frame : Wire.frame? d.bytes = some f) {c : Connection}
    (live : w.server.connection? k = some c) :
    ∃ g, f = .numbered g.order .confirm true ∧ c.control.Shows g ∧
      (∃ accepted, (w.server.route address d.bytes).1 = .control accepted) ∧
      ∃ c', (w.server.route address d.bytes).2.connection? k = some c' ∧
        c'.control = (c.control.accept g.order true).2 := by
  obtain ⟨g, given, rfl⟩ := h.reply sent frame
  have brief := meets.calm.brief
  have orderly := h.orderly brief k c live
  have shown : c.control.Shows g := (orderly.answered _ given).1
  obtain ⟨found, rfl⟩ := h.found live
  obtain ⟨_, outcome⟩ := Server.route_frame_cases h.honest.keyed found frame
  rw [ControlFrame.confirms_numbered] at outcome
  rcases outcome with ⟨reason, kick, _⟩ | ⟨_, accepted, after, _⟩
  · -- The welcome has no kick in it.
    rcases ControlQueue.accept_shown orderly.tidy brief.2 shown with
      ⟨head, taken, _⟩ | ⟨_, untaken, _⟩
    · have greets := (civil.queue _ c live).head head
      have same := Option.some.inj (Acceptance.accepted.inj (kick.symm.trans taken))
      cases greets <;> cases same
    · exact absurd kick (untaken _)
  · exact ⟨g, rfl, shown, accepted, after⟩

/-- What the client has sent does not end the connection. -/
theorem Meets.up (meets : w.Meets k) (h : w.Sound address) (civil : w.Civil) (polite : w.Polite)
    {d : Datagram} (sent : d ∈ w.client.transport.sent) : (w.up address d.bytes).Meets k := by
  obtain ⟨c, live⟩ := Option.isSome_iff_exists.1 meets.live
  have stays : (w.server.route address d.bytes).1 ≠ .rejected ∧
      Server.Routed.registered? (w.server.route address d.bytes).1 = none ∧
      ((w.server.route address d.bytes).2.connection? k).isSome = true := by
    cases frame : Wire.frame? d.bytes with
    | some f =>
      obtain ⟨_, _, _, ⟨accepted, outcome⟩, c', live', _⟩ :=
        meets.route_answer h civil sent frame live
      rw [outcome]
      exact ⟨nofun, rfl, Option.isSome_iff_exists.2 ⟨c', live'⟩⟩
    | none =>
      obtain ⟨found, rfl⟩ := h.found live
      exact Server.route_stays h.honest.keyed found frame (polite.said d sent)
  obtain ⟨admitted, unopened, live'⟩ := stays
  refine ⟨meets.once, meets.on, ?_, live', meets.unqueued, fun turned => ?_⟩
  · rw [opened_up, unopened, meets.opened]
    rfl
  · rcases List.mem_append.1 turned with old | new
    · exact meets.admitted old
    · exact admitted (List.mem_singleton.1 new).symm

/-- Confirmations only add up. -/
theorem Meets.number_le (meets : w'.Meets k) (h : w.Sound address) (civil : w.Civil)
    (step : Step address w w') {c₀ c : Connection} (before : w.server.connection? k = some c₀)
    (live : w'.server.connection? k = some c) :
    c₀.control.number.toNat ≤ c.control.number.toNat := by
  have brief := (meets.calm.before h step).brief
  rcases step_follows h step live with ⟨opened, _⟩ | ⟨c₁, before', follows⟩
  · rw [meets.opened, (meets.calm.before h step).opened_of_live h before] at opened
    cases opened
  · rw [before] at before'
    cases before'
    rcases follows.calm meets.calm with same | ⟨a, given, accepted⟩
    · rw [same]
    · have orderly := h.orderly brief k c₀ before
      rw [accepted, ((civil.queue k c₀ before).accept orderly.tidy brief.2
        (orderly.answered a given).1).2]
      split
      · exact Nat.le_succ _
      · exact Nat.le_refl _

end DatagramSession.Handshake
