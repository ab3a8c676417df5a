import DatagramSession.Proofs.Replies
/-!
# Servers that are tended

A host tends its server: it queues commands, flushes, sweeps and closes connections.  Whatever of
this it does, no control message is queued or confirmed by it, no control frame goes out but the
head of a live connection, a goodbye goes out only when the connection ends, and no connection is
reported as kicked (`Server.Tended`).  The same holds of every datagram that arrives and is no
control frame (`route_tended`); a control frame is taken by the connection at its endpoint
(`routeControl_cases`).
-/
namespace DatagramSession

namespace Registry

/-- Whoever is live afterwards was live before and has the same control messages. -/
def Spares (r r' : Registry) : Prop :=
  ∀ k c', r'.connection? k = some c' → ∃ c, r.connection? k = some c ∧ c'.control = c.control

section
variable {r r' r'' : Registry}

theorem spares_refl (r : Registry) : Spares r r :=
  fun _ c' live => ⟨c', live, rfl⟩

theorem Spares.trans (first : Spares r r') (second : Spares r' r'') : Spares r r'' := by
  intro k c'' live
  obtain ⟨c', live', same'⟩ := second k c'' live
  obtain ⟨c, live, same⟩ := first k c' live'
  exact ⟨c, live, same'.trans same⟩

theorem spares_modify (r : Registry) (id : ConnectionId) {f : Connection → Connection}
    (kept : ∀ c, (f c).control = c.control) : Spares r (r.modify id f) := by
  intro k c' live
  simp only [connection?, modify, Table.find?_modify] at live
  split at live
  · obtain ⟨c, before, rfl⟩ := Option.map_eq_some_iff.1 live
    exact ⟨c, before, kept c⟩
  · exact ⟨c', live, rfl⟩

/-- Without a new connection everything is spared. -/
theorem Effect.spares (effect : Effect r none r') : Spares r r' :=
  fun _ c' live => ⟨c', effect.live live, rfl⟩

theorem Spares.gone (spares : Spares r r') {k : ConnectionId} (gone : r.connection? k = none) :
    r'.connection? k = none := by
  cases live : r'.connection? k with
  | none => rfl
  | some c' =>
    obtain ⟨c, before, _⟩ := spares k c' live
    rw [gone] at before
    cases before

end

end Registry

namespace Server

/-- What goes out: an envelope, a goodbye when its connection is no longer live afterwards, the
control message that waits at a live connection, a refusal when a hello is turned away. -/
inductive Posts (turned : Prop) (s s' : Server) : Body → Prop where
  | envelope (e : Envelope) : Posts turned s s' (.envelope e)
  | goodbye {k : ConnectionId} {c : Connection} (live : s.connection? k = some c)
      (gone : s'.connection? k = none) :
      Posts turned s s' .disconnect
  | head {k : ConnectionId} {c : Connection} (live : s.connection? k = some c) {f : ControlFrame}
      (head : c.control.head? = some f) : Posts turned s s' (.control f)
  | refusal (away : turned) (reason : String) :
      Posts turned s s' (.control (.numbered 0 (.kick reason) false))

/-- No control message was queued or confirmed, and what went out is as it should be. -/
structure Tended (turned : Prop) (s s' : Server) : Prop where
  spares : s.lobby.registry.Spares s'.lobby.registry
  grows : s.transport.sent <+: s'.transport.sent
  posts : ∀ d ∈ s'.transport.sent,
    d ∈ s.transport.sent ∨ ∃ p, Wire.encode p = .ok d.bytes ∧ Posts turned s s' p.body
  kicks : ∀ k, .disconnected k .kicked ∈ s'.lobby.events → .disconnected k .kicked ∈ s.lobby.events
  watchers : s.lobby.watchers ⊆ s'.lobby.watchers

section
variable {turned : Prop} {s s' s'' : Server}

theorem Posts.before (spares : s.lobby.registry.Spares s'.lobby.registry) {body : Body}
    (posts : Posts turned s' s'' body) : Posts turned s s'' body := by
  cases posts with
  | envelope e => exact .envelope e
  | refusal away reason => exact .refusal away reason
  | goodbye live gone =>
    obtain ⟨c, before, _⟩ := spares _ _ live
    exact .goodbye before gone
  | head live head =>
    obtain ⟨c, before, same⟩ := spares _ _ live
    exact .head before (same ▸ head)

theorem Posts.after (spares : s'.lobby.registry.Spares s''.lobby.registry) {body : Body}
    (posts : Posts turned s s' body) : Posts turned s s'' body := by
  cases posts with
  | envelope e => exact .envelope e
  | refusal away reason => exact .refusal away reason
  | goodbye live gone => exact .goodbye live (spares.gone gone)
  | head live head => exact .head live head

theorem Tended.trans (first : Tended turned s s') (second : Tended turned s' s'') :
    Tended turned s s'' := by
  constructor
  case spares => exact first.spares.trans second.spares
  case grows => exact first.grows.trans second.grows
  case posts =>
    intro d mem
    rcases second.posts d mem with mid | ⟨p, sent, posts⟩
    · rcases first.posts d mid with old | ⟨p, sent, posts⟩
      · exact .inl old
      · exact .inr ⟨p, sent, posts.after second.spares⟩
    · exact .inr ⟨p, sent, posts.before first.spares⟩
  case kicks =>
    intro k closed
    exact first.kicks k (second.kicks k closed)
  case watchers => exact List.Subset.trans first.watchers second.watchers

theorem tended_of_spares (spares : s.lobby.registry.Spares s'.lobby.registry)
    (sent : s'.transport.sent = s.transport.sent)
    (kicks : ∀ k, .disconnected k .kicked ∈ s'.lobby.events →
      .disconnected k .kicked ∈ s.lobby.events)
    (watchers : s'.lobby.watchers = s.lobby.watchers) : Tended turned s s' :=
  ⟨spares, sent ▸ List.prefix_rfl, fun _ mem => .inl (sent ▸ mem), kicks,
    watchers ▸ List.Subset.refl _⟩

theorem tended_of_eq (registry : s'.lobby.registry = s.lobby.registry)
    (sent : s'.transport.sent = s.transport.sent) (events : s'.lobby.events = s.lobby.events)
    (watchers : s'.lobby.watchers = s.lobby.watchers) :
    Tended turned s s' :=
  tended_of_spares (registry ▸ Registry.spares_refl _) sent (fun _ closed => events ▸ closed)
    watchers

theorem tended_refl (s : Server) : Tended turned s s :=
  tended_of_eq rfl rfl rfl rfl

theorem tended_modify (s : Server) (id : ConnectionId) {f : Connection → Connection}
    (kept : ∀ c, (f c).control = c.control) :
    Tended turned s { s with lobby := s.lobby.modify id f } :=
  tended_of_spares (Registry.spares_modify _ id kept) rfl (fun _ closed => closed) rfl

theorem sent_prefix_send (s : Server) (target : Address) (p : Packet) :
    s.transport.sent <+: (s.send target p).2.transport.sent :=
  s.transport.sent_prefix_send target p

theorem tended_send {target : Address} {p : Packet} (posts : Posts turned s s p.body) :
    Tended turned s (s.send target p).2 := by
  have spares : s.lobby.registry.Spares (s.send target p).2.lobby.registry := Registry.spares_refl _
  refine ⟨spares, sent_prefix_send s target p, fun d mem => ?_, fun _ closed => closed,
    List.Subset.refl _⟩
  exact (Transport.mem_sent_send mem).imp_right fun encoded => ⟨p, encoded, posts.after spares⟩

theorem tended_sendTo (c : Connection) {body : Body} (posts : Posts turned s s body) :
    Tended turned s (s.sendTo c body).2 := by
  have spares : s.lobby.registry.Spares (s.sendTo c body).2.lobby.registry :=
    Registry.spares_modify _ c.id fun _ => rfl
  have sent := sent_prefix_send { s with lobby := s.lobby.modify c.id fun c => c.nextSequence.2 }
    c.address (.numbered c.sequence body)
  refine ⟨spares, sent, fun d mem => ?_, fun _ closed => closed, List.Subset.refl _⟩
  exact (Transport.mem_sent_send mem).imp_right fun encoded => ⟨_, encoded, posts.after spares⟩

theorem tended_close (s : Server) (id : ConnectionId) {reason : DisconnectReason}
    (other : reason ≠ .kicked) :
    Tended turned s (s.close id reason).2 := by
  refine tended_of_spares ?_ rfl (fun k closed => ?_) (s.lobby.watchers_close id reason)
  · exact Registry.Effect.spares (s.lobby.effect_answer (.close id reason))
  · rcases s.lobby.events_close id reason _ closed with old | ⟨_, same⟩
    · exact old
    · cases same
      exact absurd rfl other

theorem connection?_close (s : Server) (id : ConnectionId) (reason : DisconnectReason)
    (k : ConnectionId) :
    (s.close id reason).2.connection? k = if id = k then none else s.connection? k := by
  show (s.lobby.close id reason).2.registry.connection? k = _
  rw [Lobby.close_registry]
  exact Registry.connection?_remove _ id k

/-- A goodbye goes out right before its connection is closed. -/
theorem tended_leave (s : Server) (id : ConnectionId) {reason : DisconnectReason}
    (other : reason ≠ .kicked) : Tended turned s ((s.sayGoodbye id).close id reason).2 := by
  unfold sayGoodbye
  split
  case h_2 => exact tended_close s id other
  case h_1 c live =>
    have spares : s.lobby.registry.Spares (s.sendTo c .disconnect).2.lobby.registry :=
      Registry.spares_modify _ c.id fun _ => rfl
    have closed : Tended turned _ _ := tended_close (s.sendTo c .disconnect).2 id other
    have gone : ((s.sendTo c .disconnect).2.close id reason).2.connection? id = none := by
      rw [connection?_close, if_pos rfl]
    constructor
    case spares => exact spares.trans closed.spares
    case grows =>
      exact sent_prefix_send { s with lobby := s.lobby.modify c.id fun c => c.nextSequence.2 }
        c.address _
    case posts =>
      intro d mem
      exact (Transport.mem_sent_send mem).imp_right fun encoded => ⟨_, encoded, .goodbye live gone⟩
    case kicks => exact closed.kicks
    case watchers => exact closed.watchers

/-! ## Hosts -/

/-- What a host may do with a server other than to queue control messages.  It does not report
anybody as kicked. -/
inductive Tends : Server → Server → Prop where
  | enqueue (s : Server) (id : ConnectionId) (c : Command) : Tends s (s.enqueue id c).2
  | broadcast (s : Server) (c : Command) : Tends s (s.broadcast c).2
  | close (s : Server) (id : ConnectionId) (reason : DisconnectReason) (other : reason ≠ .kicked) :
      Tends s (s.close id reason).2
  | shutdown (s : Server) : Tends s s.shutdown
  | sweep (s : Server) (order : List ConnectionId) : Tends s (s.sweepIn order).2
  | flush (s : Server) (connections peers : List ConnectionId) :
      Tends s (s.flushIn connections peers).2
  | addHandler (s : Server) (h : ServerHandler) : Tends s (s.addHandler h)
  | removeHandler (s : Server) (h : ServerHandler) : Tends s (s.removeHandler h).2
  | introduce (s : Server) (name : String) : Tends s (s.introduce name)
  | addWatcher (s : Server) (w : Watcher) : Tends s (s.addWatcher w)
  | takeEvents (s : Server) : Tends s { s with lobby := s.lobby.takeEvents.2 }
  | takeDeliveries (s : Server) : Tends s s.takeDeliveries.2
  | elapse (s : Server) (d : Duration) : Tends s (s.elapse d)
  /-- The link changes. -/
  | relink (s : Server) (refuses : Datagram → Bool) :
      Tends s { s with transport := { s.transport with refuses } }

theorem Tends.does (tends : Tends s s') : Does s s' := by
  cases tends with
  | enqueue id c => exact .enqueue s id c
  | broadcast c => exact .broadcast s c
  | close id reason => exact .close s id reason
  | shutdown => exact .shutdown s
  | sweep order => exact .sweep s order
  | flush connections peers => exact .flush s connections peers
  | addHandler h => exact .addHandler s h
  | removeHandler h => exact .removeHandler s h
  | introduce name => exact .introduce s name
  | addWatcher w => exact .addWatcher s w
  | takeEvents => exact .takeEvents s
  | takeDeliveries => exact .takeDeliveries s
  | elapse d => exact .elapse s d
  | relink refuses => exact .relink s refuses

theorem tended_sweepOne (acc : SweepReport × Server) (id : ConnectionId) :
    Tended turned acc.2 (sweepOne acc id).2 := by
  obtain ⟨report, s⟩ := acc
  unfold sweepOne
  dsimp only
  split
  case h_1 => exact tended_refl s
  case h_2 c live =>
    split
    · exact tended_close s id nofun
    · split
      case h_1 => exact tended_refl s
      case h_2 f head =>
        have sent : Tended turned s (s.sendTo c (.control f)).2 := tended_sendTo c (.head live head)
        split
        case h_1 n s' result =>
          rw [result] at sent
          exact sent
        case h_2 e s' result =>
          rw [result] at sent
          exact sent

theorem tended_sweepIn (s : Server) (order : List ConnectionId) :
    Tended turned s (s.sweepIn order).2 := by
  have swept : Tended turned s (order.foldl sweepOne ({}, s)).2 := by
    refine List.foldlRecOn order _
      (motive := fun acc : SweepReport × Server => Tended turned s acc.2) (tended_refl s) ?_
    intro acc tended id _
    exact tended.trans (tended_sweepOne acc id)
  apply swept.trans
  exact tended_of_spares (Registry.Effect.spares (Lobby.effect_answer _ (.expire _ _))) rfl
    (fun _ closed => closed) rfl

theorem tended_sendEnvelope (acc : Nat × Server) (mail : ConnectionId × Envelope) :
    Tended turned acc.2 (sendEnvelope acc mail).2 := by
  obtain ⟨count, s⟩ := acc
  unfold sendEnvelope
  dsimp only
  split
  case h_1 => exact tended_refl s
  case h_2 c live =>
    have sent : Tended turned s (s.sendTo c (.envelope mail.2)).2 :=
      tended_sendTo c (.envelope mail.2)
    split
    case h_1 n s' result =>
      rw [result] at sent
      exact sent.trans (tended_modify s' mail.1 fun _ => rfl)
    case h_2 size s' result =>
      rw [result] at sent
      exact sent.trans (tended_leave s' mail.1 nofun)
    case h_3 e s' _ result =>
      rw [result] at sent
      exact sent

theorem tended_flushIn (s : Server) (connections peers : List ConnectionId) :
    Tended turned s (s.flushIn connections peers).2 := by
  obtain ⟨map, asked⟩ := s.foldl_keepAliveOne_eq connections
  unfold flushIn
  rw [asked]
  refine List.foldlRecOn _ _ (motive := fun acc : Nat × Server => Tended turned s acc.2)
    (tended_of_eq rfl rfl rfl rfl) ?_
  intro acc tended mail _
  exact tended.trans (tended_sendEnvelope acc mail)

theorem tended_shutdown (s : Server) : Tended turned s s.shutdown := by
  refine List.foldlRecOn s.ids _ (motive := Tended turned s) (tended_refl s) ?_
  intro s' tended id _
  exact tended.trans (tended_leave s' id nofun)

theorem Tends.tended (tends : Tends s s') : Tended turned s s' := by
  cases tends with
  | close id reason other => exact tended_close s id other
  | shutdown => exact tended_shutdown s
  | sweep order => exact tended_sweepIn s order
  | flush connections peers => exact tended_flushIn s connections peers
  | takeEvents => exact tended_of_spares (Registry.spares_refl _) rfl nofun rfl
  | addWatcher w =>
    exact ⟨Registry.spares_refl _, List.prefix_rfl, fun _ mem => .inl mem, fun _ closed => closed,
      List.subset_append_left _ _⟩
  | enqueue | broadcast | addHandler | removeHandler | introduce | takeDeliveries | elapse
  | relink =>
    exact tended_of_eq (by rfl) (by rfl) (by rfl) (by rfl)

/-! ## Datagrams -/

theorem tended_perform (id : ConnectionId) (call : Call ServerHandler) (s : Server) :
    Tended turned s ((receiver id).perform call s) := by
  match call with
  | .guaranteed .peers _ => exact tended_refl s
  | .unreliable .relay c =>
    simp only [receiver]
    split
    · exact tended_of_eq rfl rfl rfl rfl
    · exact tended_refl s
  | .guaranteed .relay _ | .acknowledge _ | .unreliable .peers _ | .guaranteed (.application _) _
  | .unreliable (.application _) _ => exact tended_of_eq rfl rfl rfl rfl

theorem tended_routeEnvelope (s : Server) (c : Connection) (e : Envelope) :
    Tended turned s (s.routeEnvelope c e).2 := by
  have performed (calls : List (Call ServerHandler)) :
      Tended turned s ((receiver c.id).performAll calls s) :=
    (receiver c.id).performAll_induct (tended_refl s) fun call _ s' tended =>
      tended.trans (tended_perform c.id call s')
  simp only [routeEnvelope, Receiver.receive_eq]
  refine Tended.trans ?_ (tended_modify _ c.id fun _ => rfl)
  split
  · exact performed _
  · exact tended_refl s

theorem tended_routeHello (s : Server) (endpoint : Address) (token : OrderNumber) (hello : Hello)
    (other : Routed.registered? (s.routeHello endpoint token hello).1 = none)
    (away : (s.routeHello endpoint token hello).1 = .rejected → turned) :
    Tended turned s (s.routeHello endpoint token hello).2 := by
  have answered : Lobby.completedId? (s.lobby.register endpoint token hello s.now).1 = none →
      Tended turned s { s with lobby := (s.lobby.register endpoint token hello s.now).2 } := by
    intro opens
    have effect := s.lobby.effect_answer (.hello endpoint token hello s.now)
    rw [Lobby.enrols?, opens] at effect
    have quiet := Lobby.quiet_register opens
    refine tended_of_spares effect.spares rfl (fun k closed => ?_) quiet.watchers
    obtain ⟨more, events, silent⟩ := quiet.events
    rw [events] at closed
    rcases List.mem_append.1 closed with old | new
    · exact old
    · cases silent _ new
  unfold routeHello at other away ⊢
  generalize s.lobby.register endpoint token hello s.now = answer at answered other away
  obtain ⟨result, lobby⟩ := answer
  dsimp only at answered other away ⊢
  split at other
  case h_1 => cases other
  case h_2 | h_3 => exact answered rfl
  case h_4 id => exact (answered rfl).trans (tended_modify { s with lobby } id fun _ => rfl)
  case h_5 reason =>
    have reported : Tended turned { s with lobby }
        { s with lobby := lobby.report (.denied endpoint reason) } :=
      tended_of_spares (Registry.spares_refl _) rfl (by simp [Lobby.report]) rfl
    exact (answered rfl).trans (reported.trans (tended_send (.refusal (away rfl) reason)))
  case h_6 e =>
    refine (answered rfl).trans (tended_of_spares (Registry.spares_refl _) rfl ?_ rfl)
    simp [Lobby.report]

/-- Whatever a datagram leads to that is no control frame and completes no connection. -/
theorem route_tended (endpoint : Address) {bytes : List UInt8} (plain : Wire.frame? bytes = none)
    (other : Routed.registered? (s.route endpoint bytes).1 = none)
    (away : (s.route endpoint bytes).1 = .rejected → turned) :
    Tended turned s (s.route endpoint bytes).2 := by
  have touched (c : Connection) :
      Tended turned s { s with lobby := s.lobby.modify c.id (·.touch s.now) } :=
    tended_modify s c.id fun _ => rfl
  unfold route at other away ⊢
  unfold Wire.frame? at plain
  cases decoded : Wire.decode bytes with
  | error => exact tended_refl s
  | ok p =>
    simp only [decoded] at other away plain ⊢
    by_cases valid : p.header.isValid
    · simp only [valid, if_true] at other away ⊢
      obtain ⟨header, body⟩ := p
      unfold routePacket at other away ⊢
      cases body with
      | register hello => exact tended_routeHello s endpoint _ hello other away
      | control f => simp [valid] at plain
      | envelope e =>
        dsimp only
        cases found : s.lobby.registry.connectionAt? endpoint with
        | none => exact tended_refl s
        | some c => exact (touched c).trans (tended_routeEnvelope _ _ e)
      | disconnect =>
        dsimp only
        cases found : s.lobby.registry.connectionAt? endpoint with
        | none => exact tended_refl s
        | some c => exact (touched c).trans (tended_close _ _ nofun)
    · simp only [valid]
      exact tended_refl s

/-- Of all that arrives only a hello that is rejected is answered at once. -/
theorem transport_route (s : Server) (endpoint : Address) (bytes : List UInt8)
    (kept : (s.route endpoint bytes).1 ≠ .rejected) :
    (s.route endpoint bytes).2.transport = s.transport := by
  have performed (id : ConnectionId) (calls : List (Call ServerHandler)) (s : Server) :
      ((receiver id).performAll calls s).transport = s.transport := by
    refine (receiver id).performAll_induct (motive := fun s' : Server => s'.transport = s.transport)
      rfl ?_
    intro call _ s' same
    rw [← same]
    match call with
    | .unreliable .relay c =>
      simp only [receiver]
      split <;> rfl
    | .guaranteed .peers _ | .guaranteed .relay _ | .acknowledge _ | .unreliable .peers _
    | .guaranteed (.application _) _ | .unreliable (.application _) _ => rfl
  have connected (s : Server) (c : Connection) (body : Body) :
      (s.routeConnected c body).2.transport = s.transport := by
    cases body with
    | control f =>
      simp only [routeConnected, routeControl]
      split <;> rfl
    | envelope e =>
      simp only [routeConnected, routeEnvelope, Receiver.receive_eq]
      split
      · exact performed _ _ _
      · rfl
    | register | disconnect => rfl
  unfold route at kept ⊢
  cases decoded : Wire.decode bytes with
  | error => rfl
  | ok p =>
    simp only [decoded] at kept ⊢
    split
    case isFalse => rfl
    case isTrue valid =>
      simp only [valid, if_true] at kept
      unfold routePacket at kept ⊢
      split
      case h_1 hello registers =>
        simp only [registers, routeHello] at kept ⊢
        split
        case h_5 reason rejected => simp [rejected] at kept
        all_goals rfl
      case h_2 =>
        split
        · rfl
        · exact connected _ _ _

/-! ## Control frames -/

theorem route_frame {bytes : List UInt8} {f : ControlFrame} (frame : Wire.frame? bytes = some f)
    (endpoint : Address) :
    s.route endpoint bytes = match s.lobby.registry.connectionAt? endpoint with
      | none => (.unknown, s)
      | some c =>
        { s with lobby := s.lobby.modify c.id (·.touch s.now) }.routeControl (c.touch s.now) f := by
  obtain ⟨header, decoded, valid⟩ := Wire.decode_of_frame? frame
  have taken : s.route endpoint bytes = s.routePacket endpoint ⟨header, .control f⟩ := by
    rw [route, decoded]
    exact if_pos valid
  exact taken

/-- A control frame is a confirmation.  Either it confirms a kick, which closes the connection and
is reported, or the connection stays and has taken note of it. -/
theorem route_frame_cases (keyed : s.lobby.registry.Keyed) {endpoint : Address} {c : Connection}
    (found : s.lobby.registry.connectionAt? endpoint = some c) {bytes : List UInt8}
    {f : ControlFrame} (frame : Wire.frame? bytes = some f) :
    let s' := (s.route endpoint bytes).2
    s'.lobby.watchers = s.lobby.watchers ∧
    ((∃ reason, (c.control.accept f.order f.confirms).1 = .accepted (some (.kick reason)) ∧
        (s.route endpoint bytes).1 = .closed .kicked ∧ s'.connection? c.id = none ∧
        (.events ∈ s.lobby.watchers → .disconnected c.id .kicked ∈ s'.lobby.events)) ∨
      ((∀ reason, (c.control.accept f.order f.confirms).1 ≠ .accepted (some (.kick reason))) ∧
        (∃ accepted, (s.route endpoint bytes).1 = .control accepted) ∧
        (∃ c', s'.connection? c.id = some c' ∧
          c'.control = (c.control.accept f.order f.confirms).2) ∧
        s'.lobby.events = s.lobby.events)) := by
  have live := connection?_of_connectionAt? keyed found
  let s₁ : Server := { s with lobby := s.lobby.modify c.id (·.touch s.now) }
  let s₂ : Server :=
    { s₁ with lobby := s₁.lobby.modify c.id fun _ => ((c.touch s.now).accept f.order f.confirms).2 }
  have live₂ : s₂.connection? c.id = some ((c.touch s.now).accept f.order f.confirms).2 := by
    rw [connection?_modify, if_pos rfl, connection?_modify, if_pos rfl, live]
    rfl
  have routed : s.route endpoint bytes = s₁.routeControl (c.touch s.now) f := by
    rw [route_frame frame, found]
  have control : ((c.touch s.now).accept f.order f.confirms).1 =
      (c.control.accept f.order f.confirms).1 := rfl
  have kept : ((c.touch s.now).accept f.order f.confirms).2.control =
      (c.control.accept f.order f.confirms).2 := rfl
  rw [routed]
  unfold routeControl
  dsimp only
  rw [control]
  cases taken : (c.control.accept f.order f.confirms).1 with
  | stale => exact ⟨rfl, .inr ⟨nofun, ⟨_, rfl⟩, ⟨_, live₂, kept⟩, rfl⟩⟩
  | accepted m =>
    cases m with
    | none => exact ⟨rfl, .inr ⟨nofun, ⟨_, rfl⟩, ⟨_, live₂, kept⟩, rfl⟩⟩
    | some m =>
      cases m with
      | kick reason =>
        refine ⟨s₂.lobby.watchers_close c.id .kicked,
          .inl ⟨reason, rfl, rfl, ?_, fun listens => ?_⟩⟩
        · exact (connection?_close s₂ c.id .kicked c.id).trans (if_pos rfl)
        · exact s₂.lobby.disconnected_mem_close listens live₂ rfl .kicked
      | registered | servicesReady | confirm =>
        exact ⟨rfl, .inr ⟨nofun, ⟨_, rfl⟩, ⟨_, live₂, kept⟩, rfl⟩⟩

end

end Server

/-! ## A new connection -/

namespace Lobby

variable {l : Lobby} {id : ConnectionId}

theorem announce_spares (l : Lobby) (c : Connection) (now : Instant) :
    (∀ k, ((l.announce c now).registry.connection? k).map Connection.control =
      (l.registry.connection? k).map Connection.control) ∧
    (l.announce c now).watchers = l.watchers ∧
    ∀ k reason, .disconnected k reason ∈ (l.announce c now).events →
    .disconnected k reason ∈ l.events := by
  refine List.foldlRecOn l.watchers _ (motive := fun l' : Lobby =>
    (∀ k, (l'.registry.connection? k).map Connection.control =
      (l.registry.connection? k).map Connection.control) ∧
    l'.watchers = l.watchers ∧ ∀ k reason, .disconnected k reason ∈ l'.events →
      .disconnected k reason ∈ l.events)
    ⟨fun _ => rfl, rfl, fun _ _ closed => closed⟩ ?_
  rintro l' ⟨control, watchers, events⟩ watcher _
  cases watcher with
  | greeter =>
    refine ⟨fun k => ?_, watchers, events⟩
    rw [← control k]
    simp only [announceTo, Registry.connection?, Registry.modify, Table.find?_modify]
    split
    · cases l'.registry.connections.find? k <;> rfl
    · rfl
  | events =>
    refine ⟨control, watchers, fun k reason closed => events k reason ?_⟩
    simpa [announceTo, report] using closed
  | peers | record => exact ⟨control, watchers, events⟩

/-- A new connection waits for two confirmations. -/
theorem control_register {endpoint : Address} {token : OrderNumber} {hello : Hello} {now : Instant}
    (completed : (l.register endpoint token hello now).1 = .ok (.completed id)) :
    (∃ c, (l.register endpoint token hello now).2.registry.connection? id = some c ∧
      c.control = { waiting := [.registered id, .servicesReady] }) ∧
    (l.register endpoint token hello now).2.watchers = l.watchers ∧
    ∀ k reason, .disconnected k reason ∈ (l.register endpoint token hello now).2.events →
      .disconnected k reason ∈ l.events := by
  obtain ⟨rfl, _, pending, tokens, address, others, _, lobby⟩ :=
    l.register_completed endpoint token hello now completed
  let l₁ : Lobby :=
    { l with
      registry := ({ l.registry with pending, tokens }.enrol hello.nonce address others now).2 }
  have live : l₁.registry.connection? l.registry.nextId =
      some (.fresh l.registry.nextId hello.nonce address others now) := by
    rw [Registry.connection?_enrol]
    exact if_pos rfl
  obtain ⟨control, watchers, events⟩ :=
    l₁.announce_spares (.fresh l.registry.nextId hello.nonce address others now) now
  have announced := control l.registry.nextId
  rw [live] at announced
  obtain ⟨c, told, same⟩ := Option.map_eq_some_iff.1 announced
  rw [lobby, introduce, live]
  refine ⟨⟨(c.tell (.registered l.registry.nextId)).tell .servicesReady, ?_, ?_⟩, watchers, events⟩
  · simp only [Registry.welcome, Registry.connection?, Registry.modify, Table.find?_modify, if_true]
    exact Option.map_eq_some_iff.2 ⟨c, told, rfl⟩
  · simp only [Connection.tell, ControlQueue.push, same]
    rfl

end Lobby
end DatagramSession
