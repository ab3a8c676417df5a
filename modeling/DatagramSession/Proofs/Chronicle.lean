import DatagramSession.Proofs.Changes
import DatagramSession.Proofs.Handling
/-!
# The chronicle of a server

A `Chronicle` is a server together with all that its host has taken from it.  However datagrams,
ticks and the host's wishes follow one another, the peers, the events and the marks of connections
stay in step with the registry (`Chronicle.in_step`): each change of the server keeps them in step
(`Change.inStep`), and so does the hello that completes a connection.
-/
namespace DatagramSession

namespace Server

variable {s s' : Server} {listeners : List Watcher} {past : History}

theorem Change.inStep (change : Change s s') (listening : Lobby.Listening listeners)
    (h : s.lobby.InStep listeners past) : s'.lobby.InStep listeners past := by
  cases change with
  | aside _ _ quiet => exact h.quiet quiet
  | note id f kept =>
    exact h.quiet (Lobby.quiet_modify fun c => ⟨congrArg Prod.fst (kept c).1, (kept c).2.2⟩)
  | accept id order confirm => exact h.quiet (Lobby.quiet_modify fun _ => ⟨rfl, rfl⟩)
  | send => exact h
  | answer request opens =>
    cases request with
    | hello => exact h.quiet (Lobby.quiet_register opens)
    | close id reason => exact h.close listening id reason
    | expire now timeout => exact h.quiet (s.lobby.quiet_expirePending now timeout)

theorem Changes.inStep (changes : Changes s s') (listening : Lobby.Listening listeners)
    (h : s.lobby.InStep listeners past) : s'.lobby.InStep listeners past := by
  induction changes with
  | refl => exact h
  | tail _ change ih => exact change.inStep listening ih

/-- Whatever arrives, from wherever, it opens one connection at most. -/
theorem route_inStep (listening : Lobby.Listening listeners) (h : s.lobby.InStep listeners past)
    (endpoint : Address) (bytes : List UInt8)
    (few : past.opened.length + (Routed.registered? (s.route endpoint bytes).1).toList.length <
      UInt32.size - 1) :
    (s.route endpoint bytes).2.lobby.InStep listeners
      { past with
        opened := past.opened ++ (Routed.registered? (s.route endpoint bytes).1).toList } := by
  cases registered : Routed.registered? (s.route endpoint bytes).1 with
  | none =>
    have changes := route_changes h.keyed endpoint bytes registered
    simpa using changes.inStep listening h
  | some id =>
    obtain ⟨token, hello, completed, result⟩ := route_opens endpoint registered
    rw [registered] at few
    rw [result]
    exact h.register listening completed few

end Server

/-- What may happen to a server.  Connections and peers are visited in any order, and links fail in
any way. -/
inductive Operation where
  /-- A datagram arrives. -/
  | route (endpoint : Address) (bytes : List UInt8)
  | flush (connections peers : List ConnectionId)
  | sweep (order : List ConnectionId)
  | kick (id : ConnectionId) (reason : String)
  | enqueue (id : ConnectionId) (c : Command)
  | broadcast (c : Command)
  /-- The host takes the events. -/
  | drain
  | takeNotices
  | elapse (d : Duration)
  | shutdown (order : List ConnectionId)
  | addHandler (h : ServerHandler)
  | removeHandler (h : ServerHandler)
  /-- The link changes. -/
  | relink (refuses : Datagram → Bool)

/-- A server, and what has been taken from it. -/
structure Chronicle where
  server : Server
  past : History := {}

namespace Chronicle

/-- A server on a new transport, with listeners that have been added to its own. -/
def start (config : ServerConfig) (listeners : List Watcher) : Chronicle where
  server := listeners.foldl Server.addWatcher (Server.start config)

def act (w : Chronicle) : Operation → Chronicle
  | .route endpoint bytes =>
    { server := (w.server.route endpoint bytes).2
      past := { w.past with
        opened := w.past.opened ++
          (Server.Routed.registered? (w.server.route endpoint bytes).1).toList } }
  | .flush connections peers => { w with server := (w.server.flushIn connections peers).2 }
  | .sweep order => { w with server := (w.server.sweepIn order).2 }
  | .kick id reason => { w with server := (w.server.kick id reason).2 }
  | .enqueue id c => { w with server := (w.server.enqueue id c).2 }
  | .broadcast c => { w with server := (w.server.broadcast c).2 }
  | .drain =>
    { server := { w.server with lobby := w.server.lobby.takeEvents.2 }
      past := { w.past with events := w.past.events ++ w.server.lobby.takeEvents.1 } }
  | .takeNotices =>
    { server := { w.server with lobby := w.server.lobby.takeNotices.2 }
      past := { w.past with notices := w.past.notices ++ w.server.lobby.takeNotices.1 } }
  | .elapse d => { w with server := w.server.elapse d }
  | .shutdown order => { w with server := w.server.shutdownIn order }
  | .addHandler h => { w with server := w.server.addHandler h }
  | .removeHandler h => { w with server := (w.server.removeHandler h).2 }
  | .relink refuses =>
    { w with server := { w.server with transport := { w.server.transport with refuses } } }

def after (w : Chronicle) (operations : List Operation) : Chronicle :=
  operations.foldl act w

/-- All events so far, whether taken or not. -/
def events (w : Chronicle) : List Event :=
  w.past.events ++ w.server.lobby.events

/-- All notices so far, whether taken or not. -/
def notices (w : Chronicle) : List Notice :=
  w.past.notices ++ w.server.lobby.notices

section
variable {w : Chronicle} {listeners : List Watcher}

theorem foldl_addWatcher (listeners : List Watcher) (s : Server) :
    listeners.foldl Server.addWatcher s = { s with lobby := { s.lobby with
      watchers := s.lobby.watchers ++ listeners } } := by
  induction listeners generalizing s with
  | nil => simp
  | cons w rest ih =>
    rw [List.foldl_cons, ih]
    simp [Server.addWatcher]

theorem inStep_start (config : ServerConfig) (listeners : List Watcher) :
    (start config listeners).server.lobby.InStep listeners (start config listeners).past := by
  rw [start, foldl_addWatcher]
  exact ⟨rfl, ⟨rfl, nofun⟩, nofun, nofun, fun _ => rfl, nofun, fun _ => .ahead, nofun, nofun, nofun⟩

theorem act_inStep (listening : Lobby.Listening listeners)
    (h : w.server.lobby.InStep listeners w.past) (operation : Operation)
    (few : (w.act operation).past.opened.length < UInt32.size - 1) :
    (w.act operation).server.lobby.InStep listeners (w.act operation).past := by
  cases operation with
  | route endpoint bytes =>
    simp only [act, List.length_append] at few
    exact Server.route_inStep listening h endpoint bytes few
  | flush connections peers => exact (w.server.flushIn_changes connections peers).inStep listening h
  | sweep order => exact (w.server.sweepIn_changes order).inStep listening h
  | shutdown order => exact (w.server.shutdownIn_changes order).inStep listening h
  | kick id reason => exact h.quiet (Lobby.quiet_modify fun _ => ⟨rfl, rfl⟩)
  | enqueue id c =>
    exact h.quiet (Lobby.quiet_peers (PeerMap.isSome_enqueue w.server.lobby.peers id c))
  | broadcast c =>
    exact h.quiet (Lobby.quiet_peers (PeerMap.isSome_enqueueAll c _ w.server.lobby.peers))
  | drain =>
    refine ⟨h.watchers, h.numbered, h.keyed, h.known, h.peers, h.unclosed, fun id => ?_, h.added,
      h.removed, h.recorded⟩
    have kept := h.lives id
    rw [← List.append_nil (w.past.events ++ w.server.lobby.events)] at kept
    exact kept
  | takeNotices =>
    refine ⟨h.watchers, h.numbered, h.keyed, h.known, h.peers, h.unclosed, h.lives, ?_, ?_, ?_⟩
    · simpa [act, Lobby.takeNotices] using h.added
    · simpa [act, Lobby.takeNotices] using h.removed
    · simpa [act, Lobby.takeNotices] using h.recorded
  | elapse | addHandler | removeHandler | relink => exact h

theorem opened_act (w : Chronicle) (operation : Operation) :
    w.past.opened <+: (w.act operation).past.opened := by
  cases operation with
  | route => exact List.prefix_append _ _
  | flush | sweep | kick | enqueue | broadcast | drain | takeNotices | elapse | shutdown
  | addHandler | removeHandler
  | relink => exact List.prefix_refl _

theorem opened_after (w : Chronicle) (operations : List Operation) :
    w.past.opened <+: (w.after operations).past.opened := by
  induction operations generalizing w with
  | nil => exact List.prefix_refl _
  | cons operation rest ih => exact (w.opened_act operation).trans (ih (w.act operation))

theorem after_inStep (listening : Lobby.Listening listeners)
    (h : w.server.lobby.InStep listeners w.past) (operations : List Operation)
    (few : (w.after operations).past.opened.length < UInt32.size - 1) :
    (w.after operations).server.lobby.InStep listeners (w.after operations).past := by
  induction operations generalizing w with
  | nil => exact h
  | cons operation rest ih =>
    have shorter := ((w.act operation).opened_after rest).length_le
    exact ih (act_inStep listening h operation (Nat.lt_of_le_of_lt shorter few)) few

end

/-- After any operations: the peers are the live connections; of each id there was one event that it
came, if it was ever opened, and after it one that it went, if it is live no longer; live
connections are not marked closed, and those that left were, as listeners saw them; and whatever
arrives next, handlers are called in the name of live connections only. -/
theorem in_step (config : ServerConfig) {listeners : List Watcher}
    (listening : Lobby.Listening listeners) (operations : List Operation)
    (few : ((start config listeners).after operations).past.opened.length < UInt32.size - 1) :
    let w := (start config listeners).after operations
    (∀ id, id ∈ w.server.lobby.peers.keys ↔ id ∈ w.server.ids) ∧
    (∀ id, Life id (decide (id ∈ w.past.opened)) (decide (id ∈ w.server.ids)) (about id w.events)) ∧
    ((∀ id c, w.server.connection? id = some c → c.closed = false) ∧
      (∀ id pending closed, .added id pending closed ∈ w.notices → closed = false) ∧
      (∀ id reason closed, .removed id reason closed ∈ w.notices →
        closed = true ∧ id ∉ w.server.ids) ∧
      (.record ∈ listeners → ∀ id ∈ w.past.opened, id ∉ w.server.ids →
        ∃ reason, .removed id reason true ∈ w.notices)) ∧
    ∀ endpoint bytes, (∀ made ∈ w.server.callsOf endpoint bytes, made.source ∈ made.server.ids) ∧
      (w.server.route endpoint bytes).2.deliveries =
        w.server.deliveries ++ (w.server.callsOf endpoint bytes).filterMap
          Server.Made.delivery? := by
  intro w
  have h : w.server.lobby.InStep listeners w.past :=
    after_inStep listening (inStep_start config listeners) operations few
  have live {s : Server} {id : ConnectionId} : id ∈ s.ids ↔ (s.connection? id).isSome = true :=
    Table.mem_keys_iff
  have left {s : Server} {id : ConnectionId} : id ∉ s.ids ↔ s.connection? id = none := by
    rw [live, Bool.not_eq_true, Option.isSome_eq_false_iff, Option.isNone_iff_eq_none]
  refine ⟨fun id => ?_, fun id => ?_, ⟨h.unclosed, h.added, fun id reason closed noted => ?_,
    fun watching id known gone => h.recorded watching id known (left.1 gone)⟩, fun endpoint bytes =>
    ⟨fun made mem => live.2 (Server.live_of_mem_callsOf h.keyed mem),
      w.server.deliveries_route endpoint bytes⟩⟩
  · rw [live, Table.mem_keys_iff, h.peers]
    exact Iff.rfl
  · have same : decide (id ∈ w.server.ids) = (w.server.connection? id).isSome := by simp [live]
    rw [same]
    exact h.lives id
  · obtain ⟨marked, _, gone⟩ := h.removed id reason closed noted
    exact ⟨marked, left.2 gone⟩

/-- Four connections: the first says goodbye, the second is kicked and confirms it, the third falls
silent after the host has taken the events, and the fourth sends an envelope. -/
theorem in_step_busy :
    let at_ (port : UInt16) : Address := ⟨.v4 167772162, port⟩
    let bytes (body : Body) : List UInt8 := (Wire.encode (.numbered 1 body)).toOption.getD []
    let hello (nonce : Nonce) : Body :=
      .register { nonce, channel := 0, game := defaultGame, version := 1 }
    let said : Body := .envelope ⟨0, [⟨0, [.message .guaranteed 1 [170]]⟩], []⟩
    let operations : List Operation := [
      .route (at_ 1) (bytes (hello 1)),
      .route (at_ 2) (bytes (hello 2)),
      .route (at_ 3) (bytes (hello 3)),
      .route (at_ 4) (bytes (hello 4)),
      .route (at_ 1) (bytes .disconnect),
      .kick 2 "idle",
      .route (at_ 2) (bytes (.control (.numbered 1 .confirm true))),
      .drain,
      .elapse (milliseconds 2001),
      .route (at_ 4) (bytes said),
      .sweep [3, 4]]
    ((start {} [.record]).after operations).past.opened = [1, 2, 3, 4] ∧
      ((start {} [.record]).after operations).server.ids = [4] ∧
      (about 2 ((start {} [.record]).after operations).events =
        [.connected 2 (at_ 2), .disconnected 2 .kicked]) ∧
      (∀ id, Life id (decide (id ∈ ((start {} [.record]).after operations).past.opened))
        (decide (id ∈ ((start {} [.record]).after operations).server.ids))
        (about id ((start {} [.record]).after operations).events)) ∧
      ((start {} [.record]).after (operations.take 9)).server.ids = [3, 4] ∧
      (((start {} [.record]).after (operations.take 9)).server.callsOf (at_ 4) (bytes said)).map
      Server.Made.source =
        [4, 4] := by
  intro at_ bytes hello said operations
  have opened : ((start {} [.record]).after operations).past.opened = [1, 2, 3, 4] := by
    decide +kernel
  have few : ((start {} [.record]).after operations).past.opened.length < UInt32.size - 1 := by
    rw [opened]
    decide
  have listening : Lobby.Listening [.record] := fun w mem => .inr (List.mem_singleton.1 mem)
  have inStep := in_step {} listening operations few
  refine ⟨opened, ?_, ?_, inStep.2.1, ?_, ?_⟩
  · decide +kernel
  · decide +kernel
  · decide +kernel
  · decide +kernel

end Chronicle
end DatagramSession
