import DatagramSession.Proofs.Handshake
/-!
# Kicks and their confirmations

What a step does to the queue of the live connection is one of four things (`Follows`).  So a kick
stays the head until another kick takes its place, and its confirmation, whenever it arrives, closes
the connection (`kick_confirmed`).  Once another kick has taken its place its confirmation counts
for nothing, though the client is gone by then (`kick_outlived`).
-/
namespace DatagramSession.Handshake

variable {address : Address} {w w' : Handshake}

/-- How the queue of a live connection changes in a step. -/
inductive Follows (w w' : Handshake) : ControlQueue → ControlQueue → Prop where
  | same (q : ControlQueue) : Follows w w' q q
  | push (q : ControlQueue) (m : ControlMessage) (queued : w'.queued = w.queued ++ [m]) :
      Follows w w' q (q.push m)
  | replace (q : ControlQueue) (reason : String) (queued : w'.queued = w.queued ++ [.kick reason]) :
      Follows w w' q (q.replace (.kick reason))
  /-- The client has confirmed a frame, but not a kick that is the head. -/
  | accept (q : ControlQueue) (a : Datagram × ControlFrame) (given : a ∈ w.answers)
      (stays : ∀ reason, (q.accept a.2.order true).1 ≠ .accepted (some (.kick reason))) :
      Follows w w' q (q.accept a.2.order true).2

/-- The endpoint leads to the live connection. -/
theorem Sound.found (h : w.Sound address) {k : ConnectionId} {c : Connection}
    (live : w.server.connection? k = some c) :
    w.server.lobby.registry.connectionAt? address = some c ∧ c.id = k := by
  refine ⟨?_, h.honest.keyed k c live⟩
  rw [Registry.connectionAt?, (h.honest.sole k c live).1]
  exact live

/-- A connection that is live after a step has just been opened, or its queue has changed as it
may. -/
theorem step_follows (h : w.Sound address) (step : Step address w w') {k : ConnectionId}
    {c : Connection} (live : w'.server.connection? k = some c) :
    (w'.opened = w.opened ++ [k] ∧ c.control = { waiting := [.registered k, .servicesReady] }) ∨
    ∃ c₀, w.server.connection? k = some c₀ ∧ Follows w w' c₀.control c.control := by
  have tended {s : Server} {turned : Prop} (tended : Server.Tended turned w.server s)
      (after : s.connection? k = some c) :
      ∃ c₀, w.server.connection? k = some c₀ ∧ Follows w w' c₀.control c.control := by
    obtain ⟨c₀, before, same⟩ := tended.spares k c after
    exact ⟨c₀, before, same ▸ .same _⟩
  have modified {id : ConnectionId} {f : Connection → Connection}
      (after : { w.server with lobby := w.server.lobby.modify id f }.connection? k = some c)
      (follows : ∀ c₀, Follows w w' c₀.control (f c₀).control) :
      ∃ c₀, w.server.connection? k = some c₀ ∧ Follows w w' c₀.control c.control := by
    rw [Server.connection?_modify] at after
    split at after
    · obtain ⟨c₀, before, rfl⟩ := Option.map_eq_some_iff.1 after
      exact ⟨c₀, before, follows c₀⟩
    · exact ⟨c, after, .same _⟩
  cases step with
  | connect | client => exact .inr ⟨c, live, .same _⟩
  | server s tends =>
    have kept : Server.Tended False w.server s := tends.tended
    exact .inr (tended kept live)
  | kick id reason => exact .inr (modified live fun c₀ => .replace _ reason rfl)
  | tell id m => exact .inr (modified live fun c₀ => .push _ m rfl)
  | down d sent =>
    rw [server_down] at live
    exact .inr ⟨c, live, .same _⟩
  | up d sent =>
    have newest := (h.up sent).honest.newest live
    cases registered : Server.Routed.registered? (w.server.route address d.bytes).1 with
    | some id =>
      rw [opened_up, registered] at newest ⊢
      simp only [Option.toList_some, List.getLast?_concat, Option.some.injEq] at newest
      subst newest
      obtain ⟨_, _, completed, result⟩ := Server.route_opens address registered
      obtain ⟨⟨c', live', fresh⟩, _⟩ := Lobby.control_register completed
      have same : (w.server.route address d.bytes).2.connection? id = some c' := by
        rw [result]
        exact live'
      rw [Handshake.up, same] at live
      cases live
      exact .inl ⟨rfl, fresh⟩
    | none =>
      right
      cases frame : Wire.frame? d.bytes with
      | none => exact tended (Server.route_tended address frame registered id) live
      | some f =>
        rw [Handshake.up] at live
        cases found : w.server.lobby.registry.connectionAt? address with
        | none =>
          rw [Server.route_frame frame, found] at live
          exact ⟨c, live, .same _⟩
        | some c₀ =>
          have before := Server.connection?_of_connectionAt? h.honest.keyed found
          obtain rfl : c₀.id = k := by
            rw [opened_up, registered, Option.toList_none, List.append_nil, h.honest.newest before]
              at newest
            exact Option.some.inj newest
          obtain ⟨g, given, rfl⟩ := h.reply sent frame
          obtain ⟨_, outcome⟩ := Server.route_frame_cases h.honest.keyed found frame
          rw [ControlFrame.confirms_numbered] at outcome
          rcases outcome with ⟨_, _, _, gone, _⟩ | ⟨stays, _, ⟨c', after, control⟩, _⟩
          · rw [gone] at live
            cases live
          · rw [after] at live
            cases live
            refine ⟨c₀, before, ?_⟩
            rw [control]
            exact .accept c₀.control (d, g) given stays

theorem opened_grows (step : Step address w w') : w.opened <+: w'.opened := by
  cases step with
  | connect | client | server | kick | tell => exact List.prefix_rfl
  | up d sent =>
    rw [opened_up]
    exact List.prefix_append _ _
  | down d sent => rw [opened_down]

theorem queued_grows (step : Step address w w') : w.queued <+: w'.queued := by
  cases step with
  | connect | client | server | up => exact List.prefix_rfl
  | kick | tell => exact List.prefix_append _ _
  | down d sent => rw [queued_down]

section
variable {w₀ : Handshake}

theorem Run.opened_grows (run : Run address w₀ w) : w₀.opened <+: w.opened := by
  induction run with
  | start => exact List.prefix_rfl
  | next _ step ih => exact ih.trans (Handshake.opened_grows step)

theorem Run.queued_grows (run : Run address w₀ w) : w₀.queued <+: w.queued := by
  induction run with
  | start => exact List.prefix_rfl
  | next _ step ih => exact ih.trans (Handshake.queued_grows step)

/-- No kick was queued since. -/
def Unkicked (w₀ w : Handshake) : Prop :=
  ∀ reason, ControlMessage.kick reason ∉ w.queued.drop w₀.queued.length

/-- A kick stays the head as long as no other one takes its place and its connection is live. -/
theorem head_of_follows (few : 2 + w.queued.length ≤ halfRange) {q q' : ControlQueue}
    (orderly : w.Orderly q) (follows : Follows w w' q q') {f : ControlFrame} {reason : String}
    (kick : f.message = .kick reason) (head : q.head? = some f) (unkicked : Unkicked w w') :
    q'.head? = some f := by
  cases follows with
  | same => exact head
  | push m =>
    obtain ⟨first, rest, waiting, rfl⟩ := ControlQueue.head?_eq_some.1 head
    exact ControlQueue.head?_eq_some.2
      ⟨first, rest ++ [m], by simp [ControlQueue.push, waiting], rfl⟩
  | replace other queued =>
    have since : ControlMessage.kick other ∈ w'.queued.drop w.queued.length := by
      rw [queued, List.drop_left]
      exact List.mem_singleton_self _
    exact absurd since (unkicked other)
  | accept a given stays =>
    have shown := (orderly.answered a given).1
    rcases ControlQueue.accept_shown orderly.tidy few shown with
      ⟨first, taken, _⟩ | ⟨_, _, waiting, number, _⟩
    · rw [head] at first
      cases first
      rw [kick] at taken
      exact absurd taken (stays reason)
    · unfold ControlQueue.head? at head ⊢
      rw [waiting, number]
      exact head

theorem Run.head (run : Run address w₀ w) (start : w₀.Sound address) {k : ConnectionId}
    {c₀ : Connection} (live₀ : w₀.server.connection? k = some c₀) {f : ControlFrame}
    {reason : String} (kick : f.message = .kick reason) (head : c₀.control.head? = some f)
    (brief : w.Brief) (unkicked : Unkicked w₀ w) {c : Connection}
    (live : w.server.connection? k = some c) : c.control.head? = some f := by
  induction run generalizing c with
  | start =>
    rw [live₀] at live
    cases live
    exact head
  | @next w w' run step ih =>
    have before := brief_of_step step brief
    have h := run.sound start
    obtain ⟨more, queued⟩ := run.queued_grows
    obtain ⟨last, queued'⟩ := Handshake.queued_grows step
    have parts : w'.queued.drop w₀.queued.length = more ++ last := by
      rw [← queued', ← queued, List.append_assoc, List.drop_left]
    have earlier : Unkicked w₀ w := by
      intro r mem
      rw [← queued, List.drop_left] at mem
      apply unkicked r
      rw [parts]
      exact List.mem_append_left _ mem
    have later : Unkicked w w' := by
      intro r mem
      rw [← queued', List.drop_left] at mem
      apply unkicked r
      rw [parts]
      exact List.mem_append_right _ mem
    rcases step_follows h step live with ⟨opened, _⟩ | ⟨c', live', follows⟩
    · -- A second connection would have been opened.
      have first := List.mem_of_getLast? (start.honest.newest live₀)
      have two := List.length_pos_of_mem (run.opened_grows.subset first)
      have single := brief.1
      rw [opened, List.length_append, List.length_singleton] at single
      omega
    · exact head_of_follows before.2 (h.orderly before k c' live') follows kick
        (ih before earlier live') later

end

/-- The confirmation of a kick closes the connection if the kick is the head, and takes nothing out
otherwise. -/
theorem Sound.route_answer (h : w.Sound address) (brief : w.Brief) {d : Datagram} {f : ControlFrame}
    {reason : String} (given : (d, f) ∈ w.answers) (kick : f.message = .kick reason)
    {k : ConnectionId} {c : Connection} (live : w.server.connection? k = some c) :
    (c.control.head? = some f →
      (w.server.route address d.bytes).1 = .closed .kicked ∧
      (w.server.route address d.bytes).2.connection? k = none ∧
      .disconnected k .kicked ∈ (w.server.route address d.bytes).2.lobby.events) ∧
    (c.control.head? ≠ some f →
      (∃ accepted, (w.server.route address d.bytes).1 = .control accepted) ∧
      ∃ c', (w.server.route address d.bytes).2.connection? k = some c' ∧
        c'.control.waiting = c.control.waiting) := by
  have orderly := h.orderly brief k c live
  have frame : Wire.frame? d.bytes = some (.numbered f.order .confirm true) := h.answers _ given
  obtain ⟨found, rfl⟩ := h.found live
  obtain ⟨_, outcome⟩ := Server.route_frame_cases h.honest.keyed found frame
  rw [ControlFrame.confirms_numbered] at outcome
  rcases ControlQueue.accept_shown orderly.tidy brief.2 (orderly.answered _ given).1 with
    ⟨head, taken, _⟩ | ⟨other, untaken, waiting, _⟩
  · constructor
    · intro _
      rcases outcome with ⟨_, _, closed, gone, reported⟩ | ⟨stays, _⟩
      · exact ⟨closed, gone, reported h.listens⟩
      · rw [kick] at taken
        exact absurd taken (stays reason)
    · intro other
      exact absurd head other
  · constructor
    · intro head
      exact absurd head other
    · intro _
      rcases outcome with ⟨r, taken, _⟩ | ⟨_, accepted, ⟨c', after, control⟩, _⟩
      · exact absurd taken (untaken _)
      · refine ⟨accepted, c', after, ?_⟩
        rw [control]
        exact waiting

/-- However datagrams are lost, repeated, delayed and reordered, and whenever and however often the
host kicks, as long as the server opens one connection and its queue is given fewer messages than
half the circle has numbers.  When the confirmation of a kick reaches the live connection, the
connection is closed and reported as kicked, if that kick is the head; otherwise the connection
stays.  A kick that was once the head is the head until the host kicks again or the connection is
closed.  And a connection is reported as kicked only if the client has applied a kick. -/
theorem kick_confirmed (clientConfig : ClientConfig) (serverConfig : ServerConfig)
    (serverAddress address : Address) {w : Handshake}
    (run : Run address (start clientConfig serverConfig serverAddress) w) (brief : w.Brief) :
    (∀ d f reason, (d, f) ∈ w.answers → f.message = .kick reason → ∀ k c,
      w.server.connection? k = some c →
      (c.control.head? = some f →
        (w.server.route address d.bytes).1 = .closed .kicked ∧
        (w.server.route address d.bytes).2.connection? k = none ∧
        .disconnected k .kicked ∈ (w.server.route address d.bytes).2.lobby.events) ∧
      (c.control.head? ≠ some f →
        (∃ accepted, (w.server.route address d.bytes).1 = .control accepted) ∧
        ∃ c', (w.server.route address d.bytes).2.connection? k = some c' ∧
          c'.control.waiting = c.control.waiting)) ∧
    (∀ w₀, Run address (start clientConfig serverConfig serverAddress) w₀ → Run address w₀ w →
      Unkicked w₀ w →
      ∀ k c₀ c f reason, w₀.server.connection? k = some c₀ → c₀.control.head? = some f →
        f.message = .kick reason →
        w.server.connection? k = some c → c.control.head? = some f) ∧
    (∀ k, .disconnected k .kicked ∈ w.server.lobby.events → ∃ f ∈ w.applied, ∃ reason,
      f.message = .kick reason) := by
  have begun : (start clientConfig serverConfig serverAddress).Sound address := sound_start _ _ _
  have h := run.sound begun
  refine ⟨?_, ?_, h.kicked brief⟩
  · intro d f reason given kick k c live
    exact h.route_answer brief given kick live
  · intro w₀ before since unkicked k c₀ c f reason live₀ head kick live
    exact since.head (before.sound begun) live₀ kick head brief unkicked live

/-- A client that is kicked before it has heard its id confirms the kick. -/
theorem kick_confirmed_once :
    let serverAddress : Address := ⟨.v4 167772161, 7000⟩
    let address : Address := ⟨.v4 167772162, 50000⟩
    let kick : ControlFrame := .numbered 1 (.kick "away") true
    let reply : Datagram :=
      ⟨serverAddress, Sessions.datagramOf (.numbered 1 (.control (.numbered 1 .confirm true)))⟩
    ∃ w c, Run address (start {} {} serverAddress) w ∧ w.Brief ∧ (reply, kick) ∈ w.answers ∧
      w.server.connection? 1 = some c ∧ c.control.head? = some kick ∧
      (w.server.route address reply.bytes).1 = .closed .kicked ∧
      (w.server.route address reply.bytes).2.connection? 1 = none ∧
      ∃ f ∈ (w.up address reply.bytes).applied, ∃ reason, f.message = .kick reason := by
  intro serverAddress address kick reply
  have begun : Run address (start {} {} serverAddress) _ := .start
  have asked := (begun.next (.connect _ 7)).next
    (.up _ ⟨serverAddress, Sessions.datagramOf (Sessions.helloOf 0 7)⟩ (by decide +kernel))
  have kicked := (asked.next (.server _ _ (.sweep _ [1]))).next (.kick _ 1 "away")
  have posted := kicked.next (.server _ _ (.sweep _ [1]))
  have run := posted.next
    (.down _ ⟨address, Sessions.datagramOf (.numbered 1 (.control kick))⟩ (by decide +kernel))
  have closed := run.next (.up _ reply (by decide +kernel))
  obtain ⟨confirmed, _⟩ :=
    kick_confirmed {} {} serverAddress address run ⟨by decide +kernel, by decide +kernel⟩
  obtain ⟨_, _, applied⟩ :=
    kick_confirmed {} {} serverAddress address closed ⟨by decide +kernel, by decide +kernel⟩
  obtain ⟨closes, _⟩ := confirmed reply kick "away" (by decide +kernel) rfl 1 _
    (Option.some_get (by decide +kernel)).symm
  obtain ⟨outcome, gone, _⟩ := closes (by decide +kernel)
  exact ⟨_, _, run, ⟨by decide +kernel, by decide +kernel⟩, by decide +kernel,
    (Option.some_get (by decide +kernel)).symm, by decide +kernel, outcome, gone,
    applied 1 (by decide +kernel)⟩

/-! ## Many kicks -/

/-- The handshake with another queue for one connection. -/
def requeue (w : Handshake) (c : Connection) (control : ControlQueue)
    (queued : List ControlMessage) : Handshake :=
  { w with
    server := { w.server with lobby := w.server.lobby.modify c.id fun _ => { c with control } }
    queued }

theorem kick_requeue {c : Connection} (live : w.server.connection? c.id = some c)
    (control : ControlQueue) (queued : List ControlMessage) (reason : String) :
    (w.requeue c control queued).kick c.id reason =
      w.requeue c (control.replace (.kick reason)) (queued ++ [.kick reason]) := by
  have found : w.server.lobby.registry.connections.find? c.id = some c := live
  have now : (w.server.lobby.registry.connections.insert c.id { c with control }).find? c.id =
      some { c with control } := by
    rw [Table.find?_insert, if_pos rfl]
  simp only [requeue, kick, Server.kick, Lobby.modify, Registry.modify,
    Table.modify_eq_insert found, Table.modify_eq_insert now, Table.insert_insert]
  rfl

theorem Run.kicks {w₀ : Handshake} (run : Run address w₀ w) {k : ConnectionId} {c : Connection}
    (live : w.server.connection? k = some c) (own : c.id = k) (waits : c.control.waiting ≠ [])
    (reason : String) (n : Nat) :
    Run address w₀ (w.requeue c
      { c.control with
        waiting := [.kick reason], number := c.control.number + UInt32.ofNat (n + 1) }
      (w.queued ++ List.replicate (n + 1) (.kick reason))) := by
  subst own
  induction n with
  | zero =>
    have found : w.server.lobby.registry.connections.find? c.id = some c := live
    have kicked := run.next (.kick w c.id reason)
    have first : w.kick c.id reason = w.requeue c (c.control.replace (.kick reason))
        (w.queued ++ [.kick reason]) := by
      simp only [requeue, kick, Server.kick, Lobby.modify, Registry.modify,
        Table.modify_eq_insert found]
      rfl
    rw [first] at kicked
    simpa [ControlQueue.replace, waits] using kicked
  | succ n ih =>
    have kicked := ih.next (.kick _ c.id reason)
    rw [kick_requeue live, List.append_assoc, ← List.replicate_succ'] at kicked
    have next : c.control.number + UInt32.ofNat (n + 1) + 1 =
        c.control.number + UInt32.ofNat (n + 1 + 1) := by
      rw [UInt32.add_assoc, UInt32.ofNat_add (n + 1) 1]
      rfl
    rw [← next]
    exact kicked

/-- Two ways for the confirmation of a kick and its connection to miss each other.  The host kicks
again before the first kick is confirmed, and the connection stays, for a client that is gone.  Or
the host has kicked so often that the number of the head is opposite to that of the only frame that
the client has applied: the client takes the kick for an old frame, and confirms it. -/
theorem kick_outlived :
    let serverAddress : Address := ⟨.v4 167772161, 7000⟩
    let address : Address := ⟨.v4 167772162, 50000⟩
    let kick : ControlFrame := .numbered 1 (.kick "first") true
    let reply : Datagram :=
      ⟨serverAddress, Sessions.datagramOf (.numbered 1 (.control (.numbered 1 .confirm true)))⟩
    (∃ w, Run address (start {} {} serverAddress) w ∧ w.opened = [1] ∧ (reply, kick) ∈ w.answers ∧
      reply ∈ w.client.transport.sent ∧ (w.server.connection? 1).isSome = true ∧
      (w.server.route address reply.bytes).1 = .control true ∧
      ((w.server.route address reply.bytes).2.connection? 1).isSome = true) ∧
    ∃ w, Run address (start {} {} serverAddress) w ∧ w.opened = [1] ∧
      .disconnected 1 .kicked ∈ w.server.lobby.events ∧
      w.applied = [.numbered 0 (.registered 1) true] := by
  intro serverAddress address kick reply
  have begun : Run address (start {} {} serverAddress) _ := .start
  have asked := (begun.next (.connect _ 7)).next
    (.up _ ⟨serverAddress, Sessions.datagramOf (Sessions.helloOf 0 7)⟩ (by decide +kernel))
  constructor
  · have kicked := (asked.next (.kick _ 1 "first")).next (.server _ _ (.sweep _ [1]))
    have heard := kicked.next
      (.down _ ⟨address, Sessions.datagramOf (.numbered 0 (.control kick))⟩ (by decide +kernel))
    have run := heard.next (.kick _ 1 "second")
    exact ⟨_, run, by decide +kernel, by decide +kernel, by decide +kernel, by decide +kernel,
      by decide +kernel, by decide +kernel⟩
  · have posted := asked.next (.server _ _ (.sweep _ [1]))
    have told := posted.next
      (.down _ ⟨address, Sessions.datagramOf (Sessions.welcomeOf 1)⟩ (by decide +kernel))
    have kicked := told.kicks (k := 1) (Option.some_get (by decide +kernel)).symm
      (by decide +kernel) (by decide +kernel) "away" 2147483647
    have reposted := kicked.next (.server _ _ (.sweep _ [1]))
    have answered := reposted.next (.down _ ⟨address,
      Sessions.datagramOf (.numbered 1 (.control (.numbered 2147483648 (.kick "away") true)))⟩
      (by decide +kernel))
    have run := answered.next (.up _ ⟨serverAddress,
      Sessions.datagramOf (.numbered 2 (.control (.numbered 2147483648 .confirm true)))⟩
      (by decide +kernel))
    exact ⟨_, run, by decide +kernel, by decide +kernel, by decide +kernel⟩

end DatagramSession.Handshake
