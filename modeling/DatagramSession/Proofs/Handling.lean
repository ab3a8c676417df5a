import DatagramSession.Proofs.Clients
import DatagramSession.Proofs.Servers
/-!
# In whose name handlers are called

`Server.callsOf` lists the calls of handlers to which a datagram leads, each with the server as it
is when the call is made.  The application's handlers are given just what these calls say
(`Server.deliveries_route`), and each call is made in the name of a connection that is live at that
moment (`Server.live_of_mem_callsOf`).  `Client.callsOf` does the same for a client, whose calls are
all in the name of its server (`Client.deliveries_takeDatagram`); each of its handlers is handed the
new guaranteed commands of an envelope (`Client.handedTo_callsOf`).
-/
namespace DatagramSession

namespace Receiver

variable {η σ : Type}

/-- The same receiver with a record of its calls, each with the state in which it is made. -/
def witnessed (r : Receiver η σ) : Receiver η (σ × List (σ × Call η)) where
  handlers s := r.handlers s.1
  perform call s := (r.perform call s.1, s.2 ++ [(s.1, call)])

theorem performAll_witnessed (r : Receiver η σ) (calls : List (Call η))
    (s : σ × List (σ × Call η)) :
    (r.witnessed.performAll calls s).1 = r.performAll calls s.1 := by
  induction calls generalizing s with
  | nil => rfl
  | cons call rest ih => exact ih (r.witnessed.perform call s)

theorem calls_witnessed (r : Receiver η σ) (calls : List (Call η)) (s : σ × List (σ × Call η)) :
    (r.witnessed.performAll calls s).2.map Prod.snd = s.2.map Prod.snd ++ calls := by
  induction calls generalizing s with
  | nil => exact (List.append_nil _).symm
  | cons call rest ih =>
    have later := ih (r.witnessed.perform call s)
    simpa [performAll, witnessed] using later

/-- Witnesses do not interfere. -/
theorem receive_witnessed (r : Receiver η σ) (inbound : Inbound) (e : Envelope) (s : σ) :
    (r.witnessed.receive inbound e (s, [])).2.2.1 = (r.receive inbound e s).2.2 := by
  rw [receive_eq, receive_eq]
  dsimp only
  split
  · exact performAll_witnessed r _ (s, [])
  · rfl

/-- A new envelope is processed by its calls, and another one by none. -/
theorem calls_receive (r : Receiver η σ) (inbound : Inbound) (e : Envelope) (s : σ) :
    (r.witnessed.receive inbound e (s, [])).2.2.2.map Prod.snd =
      if e.order.isNewer inbound.watermark then e.calls inbound.watermark (r.handlers s)
      else [] := by
  rw [receive_eq]
  dsimp only
  split
  · exact r.calls_witnessed _ (s, [])
  · rfl

/-- A log to which each call may add an item of its own grows by the items of the calls. -/
theorem log_receive {α : Type} (r : Receiver η σ) (log : σ → List α) (item? : Call η → Option α)
    (adds : ∀ call s, log (r.perform call s) = log s ++ (item? call).toList) (inbound : Inbound)
    (e : Envelope) (s : σ) :
    log (r.receive inbound e s).2.2 = log s ++
      (r.witnessed.receive inbound e (s, [])).2.2.2.filterMap fun made => item? made.2 := by
  rw [← r.receive_witnessed, receive_eq]
  dsimp only
  split
  · refine r.witnessed.performAll_induct (s := (s, []))
      (motive := fun t => log t.1 = log s ++ t.2.filterMap fun made => item? made.2)
      (List.append_nil _).symm ?_
    intro call _ t before
    change log (r.perform call t.1) = _
    rw [adds, before, List.append_assoc]
    simp only [witnessed, List.filterMap_append, List.filterMap_cons, List.filterMap_nil]
    cases item? call <;> rfl
  · exact (List.append_nil _).symm

/-- What each of the calls keeps holds in each state in which a call is made. -/
theorem witnessed_induct (r : Receiver η σ) {motive : σ → Prop} {s : σ} (start : motive s)
    (step : ∀ call s, motive s → motive (r.perform call s)) (inbound : Inbound) (e : Envelope) :
    ∀ made ∈ (r.witnessed.receive inbound e (s, [])).2.2.2, motive made.1 := by
  rw [receive_eq]
  dsimp only
  split
  · refine And.right (r.witnessed.performAll_induct
      (motive := fun t => motive t.1 ∧ ∀ made ∈ t.2, motive made.1) ⟨start, nofun⟩ ?_)
    rintro call - t ⟨here, earlier⟩
    refine ⟨step call t.1 here, fun made mem => ?_⟩
    rcases List.mem_append.1 mem with old | new
    · exact earlier made old
    · rw [List.mem_singleton.1 new]
      exact here
  · exact nofun

end Receiver

/-- What an application's handler is given by a call in the name of `source`. -/
def Call.delivery? (source : ConnectionId) : Call ServerHandler → Option Delivery
  | .guaranteed (.application h) c => some ⟨h.name, some source, .guaranteed, c⟩
  | .unreliable (.application h) c => some ⟨h.name, some source, .unreliable, c⟩
  | _ => none

namespace Server

/-- A call of a handler, the connection in whose name it is made, and the server at that moment. -/
structure Made where
  server : Server
  source : ConnectionId
  call : Call ServerHandler

def Made.delivery? (made : Made) : Option Delivery :=
  made.call.delivery? made.source

/-- The calls to which an envelope of a connection leads. -/
def callsIn (s : Server) (c : Connection) (e : Envelope) : List Made :=
  ((receiver c.id).witnessed.receive c.inbound e (s, [])).2.2.2.map fun made =>
    ⟨made.1, c.id, made.2⟩

/-- The calls to which a datagram leads, in order. -/
def callsOf (s : Server) (endpoint : Address) (bytes : List UInt8) : List Made :=
  match Wire.decode bytes, s.lobby.registry.connectionAt? endpoint with
  | .ok ⟨header, .envelope e⟩, some c =>
    if header.isValid then
      { s with lobby := s.lobby.modify c.id (·.touch s.now) }.callsIn (c.touch s.now) e else []
  | _, _ => []

variable {s : Server}

/-- A new envelope is processed by its calls. -/
theorem calls_callsIn (s : Server) (c : Connection) (e : Envelope) :
    (s.callsIn c e).map Made.call =
      if e.order.isNewer c.inbound.watermark then e.calls c.inbound.watermark s.handlers
      else [] := by
  rw [callsIn, List.map_map]
  exact (receiver c.id).calls_receive c.inbound e s

theorem deliveries_perform (source : ConnectionId) (call : Call ServerHandler) (s : Server) :
    ((receiver source).perform call s).deliveries =
      s.deliveries ++ (call.delivery? source).toList := by
  match call with
  | .guaranteed .peers _ | .guaranteed .relay _ | .acknowledge _ | .unreliable .peers _ =>
    exact (List.append_nil _).symm
  | .guaranteed (.application _) _ | .unreliable (.application _) _ => rfl
  | .unreliable .relay c =>
    simp only [receiver, Call.delivery?, Option.toList_none, List.append_nil]
    split <;> rfl

theorem deliveries_routeEnvelope (s : Server) (c : Connection) (e : Envelope) :
    (s.routeEnvelope c e).2.deliveries = s.deliveries ++ (s.callsIn c e).filterMap
      Made.delivery? := by
  rw [callsIn, List.filterMap_map]
  exact (receiver c.id).log_receive deliveries (Call.delivery? c.id) (deliveries_perform c.id)
    c.inbound e s

theorem deliveries_routeHello (s : Server) (endpoint : Address) (token : OrderNumber)
    (hello : Hello) :
    (s.routeHello endpoint token hello).2.deliveries = s.deliveries := by
  unfold routeHello
  dsimp only
  split <;> rfl

theorem deliveries_routeControl (s : Server) (c : Connection) (f : ControlFrame) :
    (s.routeControl c f).2.deliveries = s.deliveries := by
  unfold routeControl
  dsimp only
  split <;> rfl

/-- The application's handlers are given what the calls say, and nothing else. -/
theorem deliveries_route (s : Server) (endpoint : Address) (bytes : List UInt8) :
    (s.route endpoint bytes).2.deliveries = s.deliveries ++ (s.callsOf endpoint bytes).filterMap
      Made.delivery? := by
  have same : s.deliveries = s.deliveries ++ List.filterMap Made.delivery? [] :=
    (List.append_nil _).symm
  unfold route callsOf
  cases Wire.decode bytes with
  | error => exact same
  | ok p =>
    obtain ⟨header, body⟩ := p
    by_cases valid : header.isValid
    · simp only [valid, if_true, routePacket]
      cases body with
      | register hello => exact (s.deliveries_routeHello endpoint _ hello).trans same
      | envelope e =>
        cases s.lobby.registry.connectionAt? endpoint with
        | none => exact same
        | some c =>
          simp only [valid, if_true]
          exact deliveries_routeEnvelope _ (c.touch s.now) e
      | control f =>
        cases s.lobby.registry.connectionAt? endpoint with
        | none => exact same
        | some c => exact (deliveries_routeControl _ (c.touch s.now) f).trans same
      | disconnect => cases s.lobby.registry.connectionAt? endpoint <;> exact same
    · simp only [valid]
      cases body with
      | envelope => cases s.lobby.registry.connectionAt? endpoint <;> simp [valid]
      | register | control | disconnect => exact same

/-- No handler changes the registry. -/
theorem registry_perform (source : ConnectionId) (call : Call ServerHandler) (s : Server) :
    ((receiver source).perform call s).lobby.registry = s.lobby.registry := by
  match call with
  | .guaranteed .peers _ | .guaranteed .relay _ | .guaranteed (.application _) _ | .acknowledge _
  | .unreliable .peers _ | .unreliable (.application _) _ => rfl
  | .unreliable .relay _ =>
    simp only [receiver]
    split <;> rfl

/-- Handlers are called in the name of a connection that is live when they are called. -/
theorem live_of_mem_callsOf (keyed : s.lobby.registry.Keyed) {endpoint : Address}
    {bytes : List UInt8} {made : Made} (mem : made ∈ s.callsOf endpoint bytes) :
    (made.server.connection? made.source).isSome = true := by
  unfold callsOf at mem
  split at mem
  case h_1 header e c decoded found =>
    split at mem
    case isTrue =>
      obtain ⟨⟨t, call⟩, made, rfl⟩ := List.mem_map.1 mem
      have live := connection?_touch (connection?_of_connectionAt? keyed found) s.now
      refine (receiver (c.touch s.now).id).witnessed_induct
        (motive := fun t => (t.connection? (c.touch s.now).id).isSome = true) ?_
        (fun call t live => ?_) _ e _ made
      · exact Option.isSome_iff_exists.2 ⟨_, live⟩
      · rw [connection?, registry_perform]
        exact live
    case isFalse => cases mem
  case h_2 => cases mem

end Server

/-! ## Clients -/

namespace Client

/-- What an application's handler is given by a call at a client. -/
def delivery? : Call ClientHandler → Option Delivery
  | .guaranteed (.application h) c => some ⟨h.name, none, .guaranteed, c⟩
  | .unreliable (.application h) c => some ⟨h.name, none, .unreliable, c⟩
  | _ => none

/-- The calls to which an envelope from the server leads. -/
def callsIn (c : Client) (e : Envelope) : List (Call ClientHandler) :=
  if c.state.isRegistered then
    (receiver.witnessed.receive c.inbound e (c, [])).2.2.2.map Prod.snd
  else []

/-- The calls to which a datagram leads, in order. -/
def callsOf (c : Client) (source : Address) (bytes : List UInt8) : List (Call ClientHandler) :=
  if source ≠ c.server then []
  else
    match Wire.decode bytes with
    | .ok ⟨header, .envelope e⟩ =>
      if header.isValid then { c with lastReceived := c.now }.callsIn e else []
    | _ => []

theorem deliveries_perform (call : Call ClientHandler) (c : Client) :
    (receiver.perform call c).deliveries = c.deliveries ++ (delivery? call).toList := by
  match call with
  | .guaranteed .peer _ | .acknowledge _ | .unreliable .peer _ => exact (List.append_nil _).symm
  | .guaranteed (.application _) _ | .unreliable (.application _) _ => rfl

theorem deliveries_takeEnvelope (c : Client) (e : Envelope) :
    (c.takeEnvelope e).deliveries = c.deliveries ++ (c.callsIn e).filterMap delivery? := by
  unfold takeEnvelope callsIn
  split
  · rw [List.filterMap_map]
    exact receiver.log_receive deliveries delivery? deliveries_perform c.inbound e c
  · exact (List.append_nil _).symm

theorem deliveries_applyControl (c : Client) (m : ControlMessage) :
    (c.applyControl m).deliveries = c.deliveries := by
  obtain ⟨_, _, _, _, applied⟩ := c.applyControl_updates m
  rw [applied]

theorem deliveries_takeControl (c : Client) (f : ControlFrame) :
    (c.takeControl f).deliveries = c.deliveries := by
  unfold takeControl
  split
  · dsimp only
    split
    · rw [deliveries_applyControl]
      rfl
    · rfl
  · exact c.deliveries_applyControl f.message

theorem deliveries_close (c : Client) (reason : String) :
    (c.close reason).deliveries = c.deliveries := by
  unfold close
  split <;> rfl

/-- The application's handlers are given what the calls say, and nothing else. -/
theorem deliveries_takeDatagram (c : Client) (source : Address) (bytes : List UInt8) :
    (c.takeDatagram source bytes).deliveries =
      c.deliveries ++ (c.callsOf source bytes).filterMap delivery? := by
  have same : c.deliveries = c.deliveries ++ List.filterMap delivery? [] :=
    (List.append_nil _).symm
  unfold takeDatagram callsOf
  split
  · exact same
  · cases Wire.decode bytes with
    | error => exact same
    | ok p =>
      obtain ⟨header, body⟩ := p
      cases body with
      | register =>
        dsimp only
        split <;> exact same
      | control f =>
        dsimp only
        split
        · exact (deliveries_takeControl { c with lastReceived := c.now } f).trans same
        · exact same
      | disconnect =>
        dsimp only
        split
        · exact (deliveries_close { c with lastReceived := c.now } _).trans same
        · exact same
      | envelope e =>
        by_cases valid : header.isValid
        · by_cases off : c.state = .disconnected
          · simp [valid, off, callsIn, ClientState.isRegistered]
          · simp only [valid, off, ne_eq, not_false_eq_true, decide_true, Bool.and_self, if_true]
            exact deliveries_takeEnvelope { c with lastReceived := c.now } e
        · simp [valid]

/-- Every handler is handed what an envelope brings, once for each of its registrations. -/
theorem handedTo_callsOf (c : Client) {bytes : List UInt8} {sequence : UInt32} {e : Envelope}
    (carried : Wire.decode bytes = .ok (.numbered sequence (.envelope e))) (h : ClientHandler) :
    handedTo h (c.callsOf c.server bytes) =
      (c.hands e).flatMap (List.replicate (c.handlers.count h)) := by
  have valid : (Packet.numbered sequence (.envelope e)).header.isValid = true := by
    simp [Packet.numbered, Header.isValid]
  have calls : c.callsOf c.server bytes = { c with lastReceived := c.now }.callsIn e := by
    unfold callsOf
    rw [if_neg (by simp), carried]
    exact if_pos valid
  rw [calls, callsIn, hands, accepts]
  dsimp only
  by_cases registered : c.state.isRegistered
  · rw [if_pos registered, Receiver.calls_receive]
    by_cases newer : e.order.isNewer c.inbound.watermark
    · simp only [registered, newer, Bool.and_self, if_true]
      exact handedTo_calls h e _ c.handlers
    · simp [newer, handedTo]
  · simp [registered, handedTo]

end Client
end DatagramSession
