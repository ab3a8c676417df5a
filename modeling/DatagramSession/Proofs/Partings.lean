import DatagramSession.Proofs.Turnover
/-!
# Connections that are closed one after the other

Sweeps and flushes close connections while they go over all of them.  `Lobby.Closing` says what is
left of a lobby once some connections have been closed for one reason, whatever else was noted about
connections in between: the ways to them and their tokens are gone, and each one who watches has
heard of each of them in turn.
-/
namespace DatagramSession.Lobby

/-- Everyone who watches hears of a connection once for each time that they watch. -/
theorem farewell_eq (l : Lobby) (c : Connection) (reason : DisconnectReason) :
    l.farewell c reason = { l with
      peers := if .peers ∈ l.watchers then l.peers.erase c.id else l.peers
      events := l.events ++ List.replicate (l.watchers.count .events) (.disconnected c.id reason)
      notices := l.notices ++ List.replicate (l.watchers.count .record)
        (.removed c.id reason c.closed) } := by
  have told (watchers : List Watcher) (l : Lobby) : watchers.foldl (farewellTo c reason) l =
      { l with
      peers := if .peers ∈ watchers then l.peers.erase c.id else l.peers
      events := l.events ++ List.replicate (watchers.count .events) (.disconnected c.id reason)
      notices := l.notices ++ List.replicate (watchers.count .record)
        (.removed c.id reason c.closed) } := by
    induction watchers generalizing l with
    | nil => simp
    | cons watcher rest ih =>
      rw [List.foldl_cons, ih]
      cases watcher with
      | peers =>
        have again : (l.peers.erase c.id).erase c.id = l.peers.erase c.id :=
          Table.erase_of_absent ((Table.find?_erase _ _ _).trans (if_pos rfl))
        simp [farewellTo, PeerMap.remove, again]
      | events => simp [farewellTo, report, List.replicate_succ]
      | greeter => simp [farewellTo]
      | record => simp [farewellTo, List.replicate_succ]
  exact told l.watchers l

theorem close_eq {l : Lobby} {id : ConnectionId} {c : Connection}
    (live : l.registry.connection? id = some c) (own : c.id = id) (reason : DisconnectReason) :
    (l.close id reason).2 = { l with
      registry := (l.registry.remove id).2
      peers := if .peers ∈ l.watchers then l.peers.erase id else l.peers
      events := l.events ++ List.replicate (l.watchers.count .events) (.disconnected id reason)
      notices := l.notices ++ List.replicate (l.watchers.count .record)
        (.removed id reason true) } := by
  subst own
  simp only [close, Registry.remove, live, farewell_eq]
  rfl

/-- The endpoints of a live connection. -/
def endpointsOf (l : Lobby) (k : ConnectionId) : List Address :=
  (l.registry.connection? k).elim [] Connection.endpoints

/-- The nonce of a live connection. -/
def nonceOf (l : Lobby) (k : ConnectionId) : Option Nonce :=
  (l.registry.connection? k).map Connection.nonce

/-- Some connections have been closed for a reason, in this order; what is noted about the others
may have changed. -/
structure Closing (l : Lobby) (gone : List ConnectionId) (reason : DisconnectReason) (l' : Lobby) :
    Prop where
  registry : l'.registry = { l.registry with
    connections := l'.registry.connections
    byEndpoint := (gone.flatMap l.endpointsOf).foldl Table.erase l.registry.byEndpoint
    byNonce := (gone.filterMap l.nonceOf).foldl Table.erase l.registry.byNonce
    tokens := (gone.flatMap l.endpointsOf).foldl Table.erase l.registry.tokens }
  rest : l' = { l with
    registry := l'.registry
    peers := if .peers ∈ l.watchers then gone.foldl Table.erase l.peers else l.peers
    events := l.events ++ gone.flatMap fun k =>
      List.replicate (l.watchers.count .events) (.disconnected k reason)
    notices := l.notices ++ gone.flatMap fun k =>
      List.replicate (l.watchers.count .record) (.removed k reason true) }

section
variable {l l' : Lobby} {gone : List ConnectionId} {reason : DisconnectReason} {k : ConnectionId}
  {c : Connection}

theorem closing_nil (l : Lobby) (reason : DisconnectReason) : Closing l [] reason l :=
  ⟨rfl, by simp⟩

theorem Closing.modify (h : Closing l gone reason l') (id : ConnectionId)
    (f : Connection → Connection) :
    Closing l gone reason (l'.modify id f) := by
  constructor
  · dsimp only [Lobby.modify, Registry.modify]
    rw [h.registry]
  · dsimp only [Lobby.modify]
    rw [h.rest]

/-- One more connection is closed, with the nonce and the endpoints that it has had all along. -/
theorem Closing.close (h : Closing l gone reason l') (live : l'.registry.connection? k = some c)
    (own : c.id = k) {c₀ : Connection} (before : l.registry.connection? k = some c₀)
    (same : c.identity = c₀.identity) :
    Closing l (gone ++ [k]) reason (l'.close k reason).2 := by
  have nonce : l.nonceOf k = some c.nonce := by
    rw [nonceOf, before]
    exact congrArg (fun i => some i.2.1) same.symm
  have endpoints : l.endpointsOf k = c.endpoints := by
    rw [endpointsOf, before]
    exact congrArg (·.2.2) same.symm
  have watchers : l'.watchers = l.watchers := by rw [h.rest]
  rw [close_eq live own, watchers]
  constructor
  · dsimp only
    rw [Registry.remove_of_live live, h.registry]
    simp [endpoints, nonce]
  · dsimp only
    rw [h.rest]
    by_cases listens : .peers ∈ l.watchers <;> simp [listens]

/-! In which order the connections were closed shows in the reports only. -/

variable {gone' : List ConnectionId}

theorem Closing.find?_byEndpoint (h : Closing l gone reason l') (same : gone.Perm gone')
    (e : Address) :
    l'.registry.byEndpoint.find? e =
      if e ∈ gone'.flatMap l.endpointsOf then none else l.registry.byEndpoint.find? e := by
  rw [h.registry]
  simp only [Table.find?_foldl_erase, (same.flatMap_right l.endpointsOf).mem_iff]

theorem Closing.find?_tokens (h : Closing l gone reason l') (same : gone.Perm gone') (e : Address) :
    l'.registry.tokens.find? e =
      if e ∈ gone'.flatMap l.endpointsOf then none else l.registry.tokens.find? e := by
  rw [h.registry]
  simp only [Table.find?_foldl_erase, (same.flatMap_right l.endpointsOf).mem_iff]

theorem Closing.find?_byNonce (h : Closing l gone reason l') (same : gone.Perm gone') (n : Nonce) :
    l'.registry.byNonce.find? n =
      if n ∈ gone'.filterMap l.nonceOf then none else l.registry.byNonce.find? n := by
  rw [h.registry]
  simp only [Table.find?_foldl_erase, (same.filterMap l.nonceOf).mem_iff]

theorem Closing.find?_peers (h : Closing l gone reason l') (k : ConnectionId) :
    l'.peers.find? k = if k ∈ gone ∧ .peers ∈ l.watchers then none else l.peers.find? k := by
  rw [h.rest]
  by_cases listens : .peers ∈ l.watchers <;> simp [listens, Table.find?_foldl_erase]

end

end DatagramSession.Lobby
