import DatagramSession.Proofs.Dismissals
import DatagramSession.Proofs.Handling
/-!
# Welcomes

A queue that is given the welcome and nothing else shows two frames, and a client that hears no
others goes through three states.  Neither can get ahead of the other but by one frame: what the
server holds confirmed the client has applied, and the client knows no more than it was shown.
-/
namespace DatagramSession

/-- The two frames that welcome a client. -/
inductive ControlFrame.Greets (k : ConnectionId) : ControlFrame → Prop where
  | named : Greets k (.numbered 0 (.registered k) true)
  | served : Greets k (.numbered 1 .servicesReady true)

theorem ControlFrame.Greets.asks {k : ConnectionId} {f : ControlFrame} (greets : f.Greets k) :
    f.confirms = true := by
  cases greets <;> exact confirms_numbered _ _ _

namespace ControlQueue

/-- The queue was given the welcome and nothing else. -/
inductive Welcomes (k : ConnectionId) (q : ControlQueue) : Prop where
  | names (waiting : q.waiting = [.registered k, .servicesReady]) (number : q.number = 0) :
      Welcomes k q
  | serves (waiting : q.waiting = [.servicesReady]) (number : q.number = 1) : Welcomes k q
  | done (waiting : q.waiting = []) (number : q.number = 2) : Welcomes k q

section
variable {q q' : ControlQueue} {f : ControlFrame} {k : ConnectionId} {n : Nat}

theorem Welcomes.head (h : q.Welcomes k) (head : q.head? = some f) : f.Greets k := by
  obtain ⟨m, rest, waiting, rfl⟩ := head?_eq_some.1 head
  cases h with
  | names waits number =>
    rw [waits] at waiting
    cases waiting
    rw [number]
    exact .named
  | serves waits number =>
    rw [waits] at waiting
    cases waiting
    rw [number]
    exact .served
  | done waits =>
    rw [waits] at waiting
    cases waiting

/-- Something waits until two frames are confirmed. -/
theorem Welcomes.waits (h : q.Welcomes k) (few : q.number.toNat < 2) : ∃ f, q.head? = some f := by
  cases h with
  | names waiting | serves waiting => exact ⟨_, head?_eq_some.2 ⟨_, _, waiting, rfl⟩⟩
  | done _ number =>
    rw [number] at few
    exact absurd few (by decide)

theorem Welcomes.of_eq (h : q.Welcomes k) (waiting : q'.waiting = q.waiting)
    (number : q'.number = q.number) :
    q'.Welcomes k := by
  cases h with
  | names waits up => exact .names (waiting.trans waits) (number.trans up)
  | serves waits up => exact .serves (waiting.trans waits) (number.trans up)
  | done waits up => exact .done (waiting.trans waits) (number.trans up)

/-- A frame that was shown is confirmed. -/
theorem Welcomes.accept (h : q.Welcomes k) (tidy : q.Tidy n) (few : 2 + n ≤ halfRange)
    (shown : q.Shows f) :
    (q.accept f.order true).2.Welcomes k ∧
    (q.accept f.order true).2.number.toNat = if q.head? = some f then q.number.toNat + 1 else
      q.number.toNat := by
  rcases accept_shown tidy few shown with ⟨head, _, after⟩ | ⟨other, _, waiting, number, _⟩
  · rw [if_pos head, after]
    cases h with
    | names waits up => exact ⟨.serves (by simp [waits]) (by simp [up]), by simp [up]⟩
    | serves waits up => exact ⟨.done (by simp [waits]) (by simp [up]), by simp [up]⟩
    | done waits => simp [head?, waits] at head
  · rw [if_neg other, number]
    exact ⟨h.of_eq waiting number, rfl⟩

end

end ControlQueue

namespace Client

/-- The number of the next control frame that is new to the client. -/
def heard (c : Client) : Nat :=
  c.controlWatermark.elim 0 (·.toNat + 1)

/-- The client has heard nothing but its welcome to the connection that was opened. -/
inductive Greeted (opened : List ConnectionId) (c : Client) : Prop where
  | asks (state : c.state = .registering) (mark : c.controlWatermark = none) : Greeted opened c
  | named {k : ConnectionId} (own : opened = [k]) (state : c.state = .registered)
      (id : c.id = some k) (mark : c.controlWatermark = some 0) : Greeted opened c
  | served {k : ConnectionId} (own : opened = [k]) (state : c.state = .ready) (id : c.id = some k)
      (mark : c.controlWatermark = some 1) : Greeted opened c

section
variable {opened : List ConnectionId} {c c' : Client} {k : ConnectionId} {f : ControlFrame}
  {bytes : List UInt8}

theorem Greeted.on (h : c.Greeted opened) : c.state ≠ .disconnected := by
  cases h with
  | asks state | named _ state | served _ state =>
    rw [state]
    nofun

theorem Greeted.of_eq (h : c.Greeted opened) (state : c'.state = c.state) (id : c'.id = c.id)
    (mark : c'.controlWatermark = c.controlWatermark) : c'.Greeted opened := by
  cases h with
  | asks state' mark' => exact .asks (state.trans state') (mark.trans mark')
  | named own state' id' mark' =>
    exact .named own (state.trans state') (id.trans id') (mark.trans mark')
  | served own state' id' mark' =>
    exact .served own (state.trans state') (id.trans id') (mark.trans mark')

theorem Greeted.of_grown {opened' : List ConnectionId} (h : c.Greeted opened)
    (first : opened <+: opened') (single : opened'.length ≤ 1) : c.Greeted opened' := by
  have same {k : ConnectionId} (own : opened = [k]) : opened' = [k] := by
    rw [← first.eq_of_length_le (own ▸ single)]
    exact own
  cases h with
  | asks state mark => exact .asks state mark
  | named own state id mark => exact .named (same own) state id mark
  | served own state id mark => exact .served (same own) state id mark

/-- Two frames make a client ready. -/
theorem Greeted.ready (h : c.Greeted [k]) (all : 2 ≤ c.heard) :
    c.state = .ready ∧ c.id = some k := by
  cases h with
  | asks _ mark => simp [heard, mark] at all
  | named _ _ _ mark => simp [heard, mark] at all
  | served own state id =>
    cases own
    exact ⟨state, id⟩

theorem takeControl_of_newer (asks : f.confirms = true)
    (newer : f.order.isNewer c.controlWatermark = true) :
    c.takeControl f =
      { (c.send (.control (.numbered f.order .confirm true))).2 with
        controlWatermark := some f.order }.applyControl
        f.message := by
  rw [takeControl_eq c asks]
  exact if_pos newer

theorem takeControl_of_older (asks : f.confirms = true)
    (older : f.order.isNewer c.controlWatermark = false) :
    c.takeControl f = (c.send (.control (.numbered f.order .confirm true))).2 := by
  rw [takeControl_eq c asks]
  exact if_neg fun newer => Bool.false_ne_true (older.symm.trans newer)

/-- A frame of the welcome that is not ahead of the client is old, or takes it one state further. -/
theorem Greeted.takeControl (h : c.Greeted [k]) (greets : f.Greets k)
    (le : f.order.toNat ≤ c.heard) :
    (c.takeControl f).Greeted [k] ∧ f.order.toNat < (c.takeControl f).heard ∧
    c.heard ≤ (c.takeControl f).heard := by
  have asks := greets.asks
  have stays (older : f.order.isNewer c.controlWatermark = false)
      (behind : f.order.toNat < c.heard) :
      (c.takeControl f).Greeted [k] ∧ f.order.toNat < (c.takeControl f).heard ∧
        c.heard ≤ (c.takeControl f).heard := by
    rw [takeControl_of_older asks older]
    exact ⟨h.of_eq rfl rfl rfl, behind, Nat.le_refl _⟩
  cases h with
  | asks state mark =>
    cases greets with
    | named =>
      have sent : (c.send (.control (.numbered 0 .confirm true))).2.state = .registering := state
      have applied := takeControl_of_newer (c := c) asks (by rw [mark]; rfl)
      simp only [ControlFrame.numbered, applyControl] at applied sent
      rw [if_pos sent] at applied
      simp only [ControlFrame.numbered]
      rw [applied]
      refine ⟨.named rfl rfl rfl rfl, Nat.zero_lt_one, ?_⟩
      simp [heard, mark]
    | served =>
      rw [heard, mark] at le
      exact absurd le (by decide)
  | named own state id mark =>
    cases greets with
    | named => exact stays (by rw [mark]; rfl) (by simp [heard, mark, ControlFrame.numbered])
    | served =>
      cases own
      have sent : (c.send (.control (.numbered 1 .confirm true))).2.state = .registered := state
      have applied := takeControl_of_newer (c := c) asks (by rw [mark]; decide)
      simp only [ControlFrame.numbered, applyControl] at applied sent
      rw [if_pos sent] at applied
      simp only [ControlFrame.numbered]
      rw [applied]
      refine ⟨.served rfl rfl id rfl, ?_, ?_⟩ <;> simp [heard, mark]
  | served _ _ _ mark =>
    cases greets with
    | named =>
      have older : OrderNumber.after 0 1 = false := by decide
      exact stays (by rw [mark]; exact older) (by simp [heard, mark, ControlFrame.numbered])
    | served => exact stays (by rw [mark]; rfl) (by simp [heard, mark, ControlFrame.numbered])

/-- An envelope neither changes the state nor is answered at once. -/
theorem takeEnvelope_keeps (c : Client) (e : Envelope) :
    (c.takeEnvelope e).state = c.state ∧ (c.takeEnvelope e).transport = c.transport := by
  have performed (calls : List (Call ClientHandler)) :
      (receiver.performAll calls c).state = c.state ∧
      (receiver.performAll calls c).transport = c.transport := by
    refine receiver.performAll_induct
      (motive := fun c' : Client => c'.state = c.state ∧ c'.transport = c.transport) ⟨rfl, rfl⟩ ?_
    rintro call _ c' ⟨state, transport⟩
    rw [← state, ← transport]
    match call with
    | .guaranteed .peer _ | .guaranteed (.application _) _ | .acknowledge _ | .unreliable .peer _
    | .unreliable (.application _) _ => exact ⟨rfl, rfl⟩
  unfold takeEnvelope
  split
  · simp only [Receiver.receive_eq]
    split
    · exact performed _
    · exact ⟨rfl, rfl⟩
  · exact ⟨rfl, rfl⟩

/-- Nothing but a control frame or a goodbye changes the state. -/
theorem state_takeDatagram (c : Client) (source : Address) (plain : Wire.frame? bytes = none)
    (stays : ∀ p, Wire.decode bytes = .ok p → p.body ≠ .disconnect) :
    (c.takeDatagram source bytes).state = c.state := by
  unfold takeDatagram
  unfold Wire.frame? at plain
  split
  · rfl
  · cases decoded : Wire.decode bytes with
    | error => rfl
    | ok p =>
      obtain ⟨header, body⟩ := p
      dsimp only
      split
      case isFalse => rfl
      case isTrue heard =>
        have valid : header.isValid = true := (Bool.and_eq_true_iff.1 heard).1
        cases body with
        | control f => simp [decoded, valid] at plain
        | envelope e => exact (takeEnvelope_keeps _ e).1
        | disconnect => exact absurd rfl (stays _ decoded)
        | register => rfl

end

end Client

namespace Registry

/-- A hello from the endpoint of a live connection opens no other one and is not turned away. -/
theorem register_of_connectionAt? {r : Registry} {endpoint : Address} {c : Connection}
    (found : r.connectionAt? endpoint = some c) (token : OrderNumber) (hello : Hello)
    (now : Instant) :
    (∀ id, (r.register endpoint token hello now).1 ≠ .ok (.completed id)) ∧
    (∀ reason, (r.register endpoint token hello now).1 ≠ .ok (.rejected reason)) ∧
    (r.register endpoint token hello now).2.connections = r.connections := by
  have exits := r.exits_register endpoint token hello now
  generalize r.register endpoint token hello now = answer at exits
  cases exits with
  | stale | duplicate | inUse => exact ⟨nofun, nofun, rfl⟩
  | taken _ free | violates _ free | rejected _ free | waits _ free | completes _ free =>
    rw [found] at free
    cases free

end Registry

namespace Server

variable {s : Server}

theorem routeHello_stays {endpoint : Address} {c : Connection}
    (found : s.lobby.registry.connectionAt? endpoint = some c) (token : OrderNumber) (hello : Hello)
    {k : ConnectionId} (live : (s.connection? k).isSome = true) :
    (s.routeHello endpoint token hello).1 ≠ .rejected ∧
    Routed.registered? (s.routeHello endpoint token hello).1 = none ∧
    ((s.routeHello endpoint token hello).2.connection? k).isSome = true := by
  obtain ⟨incomplete, admitted, kept⟩ := Registry.register_of_connectionAt? found token hello s.now
  unfold routeHello Lobby.register
  generalize s.lobby.registry.register endpoint token hello s.now = answer
    at incomplete admitted kept
  obtain ⟨result, registry⟩ := answer
  have live : ((registry.connection? k).isSome = true) := by
    rw [Registry.connection?, kept]
    exact live
  cases result with
  | error => exact ⟨by simp, rfl, live⟩
  | ok r =>
    cases r with
    | completed id => exact absurd rfl (incomplete id)
    | rejected reason => exact absurd rfl (admitted reason)
    | stale | pending => exact ⟨by simp, rfl, live⟩
    | duplicate id =>
      refine ⟨by simp, rfl, ?_⟩
      rw [connection?_modify]
      split
      · rw [Option.isSome_map]
        exact live
      · exact live

/-- A connection is there after whatever has come from its endpoint, goodbyes and control frames
apart. -/
theorem route_stays (keyed : s.lobby.registry.Keyed) {endpoint : Address} {c : Connection}
    (found : s.lobby.registry.connectionAt? endpoint = some c) {bytes : List UInt8}
    (plain : Wire.frame? bytes = none)
    (stays : ∀ p, Wire.decode bytes = .ok p → p.body ≠ .disconnect) :
    (s.route endpoint bytes).1 ≠ .rejected ∧ Routed.registered? (s.route endpoint bytes).1 = none ∧
    ((s.route endpoint bytes).2.connection? c.id).isSome = true := by
  have live : (s.connection? c.id).isSome = true :=
    Option.isSome_iff_exists.2 ⟨c, connection?_of_connectionAt? keyed found⟩
  have modified (s : Server) (f : Connection → Connection)
      (live : (s.connection? c.id).isSome = true) :
      ({ s with lobby := s.lobby.modify c.id f }.connection? c.id).isSome = true := by
    rw [connection?_modify, if_pos rfl, Option.isSome_map]
    exact live
  unfold route
  unfold Wire.frame? at plain
  cases decoded : Wire.decode bytes with
  | error => exact ⟨by simp, rfl, live⟩
  | ok p =>
    obtain ⟨header, body⟩ := p
    simp only [decoded] at plain ⊢
    split
    case isFalse => exact ⟨by simp, rfl, live⟩
    case isTrue valid =>
      cases body with
      | register hello => exact routeHello_stays found header.sequence hello live
      | control f => simp [valid] at plain
      | disconnect => exact absurd rfl (stays _ decoded)
      | envelope e =>
        simp only [routePacket, found, routeConnected, routeEnvelope, Receiver.receive_eq]
        refine ⟨by simp, rfl, modified _ _ ?_⟩
        have touched := modified s (·.touch s.now) live
        split
        · refine (receiver _).performAll_induct
            (motive := fun s' : Server => (s'.connection? c.id).isSome = true) touched ?_
          intro call _ s' live
          rw [connection?, registry_perform]
          exact live
        · exact touched

end Server

end DatagramSession
