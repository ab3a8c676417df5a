import DatagramSession.Proofs.Enrolment
import DatagramSession.Proofs.SlotMaps
import DatagramSession.Proofs.Slots
/-!
# What becomes of the lobby's connections

`Lobby.Moves` says that each peer's slot has moved, that the live connections are old ones and that
nothing was received.  Everything that is done to a lobby is such a move, but for the hello that
completes a connection, which `Lobby.Opens` describes: the new connection has a fresh slot, if any,
and the others are as before.
-/
namespace DatagramSession

namespace Registry

/-- If a connection is live, it was so before, under the same id, and has received nothing since. -/
def Lasts (r r' : Registry) (k : ConnectionId) : Prop :=
  ∀ c', r'.connection? k = some c' → ∃ c,
    r.connection? k = some c ∧ c'.id = c.id ∧ c'.inbound = c.inbound

/-- Connections know the ids under which they are kept. -/
def Keyed (r : Registry) : Prop :=
  ∀ k c, r.connection? k = some c → c.id = k

section
variable {r r' r'' : Registry} {k : ConnectionId}

theorem lasts_of_eq (same : r'.connections = r.connections) : Lasts r r' k := by
  intro c' live
  rw [connection?, same] at live
  exact ⟨c', live, rfl, rfl⟩

theorem Lasts.trans (first : Lasts r r' k) (second : Lasts r' r'' k) : Lasts r r'' k := by
  intro c'' live
  obtain ⟨c', live', id', inbound'⟩ := second c'' live
  obtain ⟨c, live, id, inbound⟩ := first c' live'
  exact ⟨c, live, id'.trans id, inbound'.trans inbound⟩

theorem lasts_modify {id : ConnectionId} {f : Connection → Connection}
    (kept : ∀ c, r.connection? id = some c → (f c).id = c.id ∧ (f c).inbound = c.inbound) :
    Lasts r (r.modify id f) k := by
  intro c' live
  simp only [connection?, modify, Table.find?_modify] at live
  split at live
  case isTrue same =>
    obtain ⟨c, before, rfl⟩ := Option.map_eq_some_iff.1 live
    subst same
    exact ⟨c, before, kept c before⟩
  case isFalse => exact ⟨c', live, rfl, rfl⟩

theorem lasts_modify_of_ne {id : ConnectionId} (other : k ≠ id) (f : Connection → Connection) :
    Lasts r (r.modify id f) k := by
  intro c live
  simp only [connection?, modify, Table.find?_modify, if_neg (Ne.symm other)] at live
  exact ⟨c, live, rfl, rfl⟩

theorem Alike.keyed (h : Alike r r') (keyed : r.Keyed) : r'.Keyed := by
  intro k c live
  obtain ⟨c₀, before, same⟩ := h.live live
  have ids : c₀.id = c.id := congrArg (·.1) same
  rw [← ids]
  exact keyed k c₀ before

theorem lasts_remove (id : ConnectionId) : Lasts r (r.remove id).2 k := by
  intro c live
  rw [connection?_remove] at live
  split at live
  · cases live
  · exact ⟨c, live, rfl, rfl⟩

end

end Registry

namespace PeerMap

variable {κ : Type} [DecidableEq κ]

/-- An operation on one peer's slot moves the slots, if it moves that one. -/
theorem moves_atPeer {α : Type} {heard : κ → Option Envelope} {peers : PeerMap κ} {peer : κ}
    {f : PeerSlot → α × PeerSlot}
    (moves : PeerSlot.Moves (heard peer) [] (peers.find? peer) (f (peers.find? peer)).2) (k : κ) :
    PeerSlot.Moves (heard k) [] (peers.find? k) ((peers.atPeer peer f).2.find? k) := by
  rw [find?_atPeer]
  split
  case isTrue same => exact same ▸ moves
  case isFalse => exact PeerSlot.moves_rest _ _

theorem moves_enqueueAll {c : Command} (message : c.confirmed? = none) (heard : κ → Option Envelope)
    (keys : List κ) (peers : PeerMap κ) (k : κ) :
    PeerSlot.Moves (heard k) [] (peers.find? k) ((enqueueAll c keys peers).2.find? k) := by
  induction keys generalizing peers with
  | nil => exact PeerSlot.moves_rest _ _
  | cons peer rest ih =>
    have here : PeerSlot.Moves (heard k) [] (peers.find? k) ((peers.enqueue peer c).2.find? k) :=
      moves_atPeer (PeerSlot.moves_enqueue message) k
    exact here.trans (ih _)

/-- Each peer's slot is flushed and gives the envelopes that are addressed to the peer. -/
theorem moves_flushEach (heard : κ → Option Envelope) (keys : List κ) (peers : PeerMap κ) (k : κ) :
    PeerSlot.Moves (heard k) (((flushEach keys peers).1.filter (·.1 = k)).map Prod.snd)
      (peers.find? k) ((flushEach keys peers).2.find? k) := by
  induction keys generalizing peers with
  | nil => exact PeerSlot.moves_rest _ _
  | cons peer rest ih =>
    have later := ih (peers.flush peer).2
    by_cases same : peer = k
    · subst same
      have here : PeerSlot.Moves (heard peer) (peers.flush peer).1.toList (peers.find? peer)
          ((peers.flush peer).2.find? peer) := by
        rw [flush, find?_atPeer, if_pos rfl]
        exact PeerSlot.moves_flush
      have both := here.trans later
      simp only [flushEach]
      cases due : (peers.flush peer).1 <;> simpa [due] using both
    · have here : (peers.flush peer).2.find? k = peers.find? k := by
        rw [flush, find?_atPeer, if_neg same]
      rw [here] at later
      simp only [flushEach]
      cases due : (peers.flush peer).1 <;> simpa [same] using later

end PeerMap

namespace Lobby

/-- Slots have moved, connections have lasted or ended. -/
structure Moves (heard : ConnectionId → Option Envelope) (built : ConnectionId → List Envelope)
    (l l' : Lobby) :
    Prop where
  slots : ∀ k, PeerSlot.Moves (heard k) (built k) (l.peers.find? k) (l'.peers.find? k)
  lasts : ∀ k, Registry.Lasts l.registry l'.registry k
  next : l'.registry.nextId = l.registry.nextId

/-- Nothing is built for anyone. -/
abbrev Keeps (heard : ConnectionId → Option Envelope) (l l' : Lobby) : Prop :=
  Moves heard (fun _ => []) l l'

section
variable {heard : ConnectionId → Option Envelope} {built : ConnectionId → List Envelope}
  {l l' l'' : Lobby}

theorem keeps_of_eq (peers : l'.peers = l.peers)
    (connections : l'.registry.connections = l.registry.connections)
    (next : l'.registry.nextId = l.registry.nextId) : Keeps heard l l' := by
  refine ⟨fun k => ?_, fun k => Registry.lasts_of_eq connections, next⟩
  rw [peers]
  exact PeerSlot.moves_rest _ _

theorem keeps_rest (heard : ConnectionId → Option Envelope) (l : Lobby) : Keeps heard l l :=
  keeps_of_eq rfl rfl rfl

theorem Moves.then (first : Moves heard built l l') (second : Keeps heard l' l'') :
    Moves heard built l l'' := by
  refine ⟨fun k => ?_, fun k => (first.lasts k).trans (second.lasts k),
    second.next.trans first.next⟩
  have both := (first.slots k).trans (second.slots k)
  rwa [List.append_nil] at both

theorem Moves.before (first : Keeps heard l l') (second : Moves heard built l' l'') :
    Moves heard built l l'' :=
  ⟨fun k => (first.slots k).trans (second.slots k), fun k => (first.lasts k).trans (second.lasts k),
    second.next.trans first.next⟩

theorem keeps_peers {peers : PeerMap ConnectionId}
    (moves : ∀ k, PeerSlot.Moves (heard k) [] (l.peers.find? k) (peers.find? k)) :
    Keeps heard l { l with peers } :=
  ⟨moves, fun _ => Registry.lasts_of_eq rfl, rfl⟩

theorem keeps_modify {id : ConnectionId} {f : Connection → Connection}
    (kept : ∀ c, l.registry.connection? id = some c → (f c).id = c.id ∧ (f c).inbound = c.inbound) :
    Keeps heard l (l.modify id f) :=
  ⟨fun _ => PeerSlot.moves_rest _ _, fun _ => Registry.lasts_modify kept, rfl⟩

theorem keeps_farewell (heard : ConnectionId → Option Envelope) (l : Lobby) (c : Connection)
    (reason : DisconnectReason) : Keeps heard l (l.farewell c reason) := by
  refine List.foldlRecOn l.watchers _ (motive := Keeps heard l) (keeps_rest heard l) ?_
  intro l' moved watcher _
  refine moved.then ?_
  cases watcher with
  | peers =>
    refine keeps_peers fun k => ?_
    rw [PeerMap.remove, Table.find?_erase]
    split
    · exact PeerSlot.moves_none _ _
    · exact PeerSlot.moves_rest _ _
  | events | greeter | record => exact keeps_of_eq rfl rfl rfl

theorem keeps_close (heard : ConnectionId → Option Envelope) (l : Lobby) (id : ConnectionId)
    (reason : DisconnectReason) : Keeps heard l (l.close id reason).2 := by
  unfold close
  split
  case h_1 c registry removed =>
    have gone : Keeps heard l { l with registry } := by
      have registry_eq : registry = (l.registry.remove id).2 := by rw [removed]
      subst registry_eq
      exact ⟨fun _ => PeerSlot.moves_rest _ _, fun _ => Registry.lasts_remove id,
        Registry.nextId_remove _ id⟩
    exact gone.then (keeps_farewell heard _ c reason)
  case h_2 => exact keeps_rest heard l

theorem keeps_expirePending (heard : ConnectionId → Option Envelope) (l : Lobby) (now : Instant)
    (timeout : Duration) :
    Keeps heard l (l.expirePending now timeout).2 := by
  obtain ⟨pending, tokens, result, _⟩ := l.registry.expirePending_eq now timeout
  have connections : (l.expirePending now timeout).2.registry =
      { l.registry with pending, tokens } := result
  refine keeps_of_eq rfl ?_ ?_ <;> rw [connections]

/-- A hello that completes nothing leaves slots and connections alone. -/
theorem keeps_register (heard : ConnectionId → Option Envelope) (l : Lobby) (endpoint : Address)
    (token : OrderNumber) (hello : Hello) (now : Instant)
    (other : ∀ id, (l.register endpoint token hello now).1 ≠ .ok (.completed id)) :
    Keeps heard l (l.register endpoint token hello now).2 := by
  have answers := l.registry.answers_register endpoint token hello now
  unfold register at other ⊢
  generalize l.registry.register endpoint token hello now = outcome at answers other
  dsimp only at other ⊢
  split
  case h_1 id completed =>
    rw [completed] at other
    exact absurd rfl (other id)
  case h_2 =>
    cases answers with
    | apart | dropped | waits => exact keeps_of_eq rfl rfl rfl
    | completes => exact absurd rfl (other _)

theorem Moves.keyed (moves : Moves heard built l l') (keyed : l.registry.Keyed) :
    l'.registry.Keyed := by
  intro k c' live
  obtain ⟨c, before, same, _⟩ := moves.lasts k c' live
  rw [same]
  exact keyed k c before

theorem Moves.numbered {n : Nat} (moves : Moves heard built l l')
    (numbered : l.registry.Numbered n) :
    l'.registry.Numbered n := by
  refine ⟨moves.next ▸ numbered.next, fun k c' live => ?_⟩
  obtain ⟨c, before, _⟩ := moves.lasts k c' live
  exact numbered.live k c before

end

/-! ## A new connection -/

/-- A connection has been opened under an id that was free. -/
structure Opens (l l' : Lobby) (id : ConnectionId) : Prop where
  slot : l.peers.find? id = none → PeerSlot.Moves none [] PeerSlot.connected (l'.peers.find? id)
  others : ∀ k, k ≠ id → l'.peers.find? k = l.peers.find? k
  fresh : ∀ c, l'.registry.connection? id = some c → c.id = id ∧ c.inbound = {}
  lasts : ∀ k, k ≠ id → Registry.Lasts l.registry l'.registry k

section
variable {l l' l'' : Lobby} {id : ConnectionId}

/-- What is done to the slot of the new connection belongs to its opening. -/
theorem Opens.then (opens : Opens l l' id)
    (slot : PeerSlot.Moves none [] PeerSlot.connected (l'.peers.find? id) →
      PeerSlot.Moves none [] PeerSlot.connected (l''.peers.find? id))
    (others : ∀ k, k ≠ id → l''.peers.find? k = l'.peers.find? k)
    (lasts : ∀ k, Registry.Lasts l'.registry l''.registry k) : Opens l l'' id := by
  refine ⟨fun absent => slot (opens.slot absent),
    fun k other => (others k other).trans (opens.others k other), ?_,
    fun k other => (opens.lasts k other).trans (lasts k)⟩
  intro c live
  obtain ⟨c', before, same, inbound⟩ := lasts id c live
  rw [same, inbound]
  exact opens.fresh c' before

theorem opens_announceTo (opens : Opens l l' id) {c : Connection} (own : c.id = id) (now : Instant)
    (watcher : Watcher) : Opens l (announceTo c now l' watcher) id := by
  subst own
  cases watcher with
  | peers =>
    refine opens.then (fun moved => ?_) (fun k other => ?_) fun k => Registry.lasts_of_eq rfl
    · simp only [announceTo, PeerMap.add]
      split
      · exact moved
      · rw [Table.find?_insert, if_pos rfl]
        exact PeerSlot.moves_rest _ _
    · simp only [announceTo, PeerMap.add]
      split
      · rfl
      · rw [Table.find?_insert, if_neg (Ne.symm other)]
  | greeter =>
    refine opens.then (fun moved => ?_) (fun k other => ?_) fun k =>
      Registry.lasts_modify fun _ _ => ⟨rfl, rfl⟩
    · simp only [announceTo, PeerMap.enqueue, PeerMap.find?_atPeer, if_true]
      exact moved.trans (PeerSlot.moves_enqueue rfl)
    · simp only [announceTo, PeerMap.enqueue, PeerMap.find?_atPeer, if_neg (Ne.symm other)]
  | events | record => exact opens.then id (fun _ _ => rfl) fun k => Registry.lasts_of_eq rfl

theorem opens_announce (opens : Opens l l' id) {c : Connection} (own : c.id = id) (now : Instant) :
    Opens l (l'.announce c now) id := by
  refine List.foldlRecOn l'.watchers _ (motive := fun l'' => Opens l l'' id) opens ?_
  intro l'' opens watcher _
  exact opens_announceTo opens own now watcher

/-- The watchers' welcome belongs to the opening. -/
theorem opens_introduce (opens : Opens l l' id) (now : Instant) :
    Opens l (l'.introduce id now) id := by
  unfold introduce
  split
  case h_1 c live =>
    have announced := opens_announce opens (opens.fresh c live).1 now
    exact announced.then (fun moved => moved) (fun _ _ => rfl) fun k =>
      Registry.lasts_modify fun _ _ => ⟨rfl, rfl⟩
  case h_2 => exact opens

theorem opens_enrol (l : Lobby) (pending : Table Nonce Draft) (tokens : Table Address OrderNumber)
    (nonce : Nonce) (address : Address) (others : List Address) (now : Instant) :
    Opens l { l with
      registry := ({ l.registry with pending, tokens }.enrol nonce address others now).2 }
      l.registry.nextId := by
  have fresh (k : ConnectionId) :=
    Registry.connection?_enrol { l.registry with pending, tokens } nonce address others now k
  dsimp only at fresh
  refine ⟨fun absent => ?_, fun _ _ => rfl, fun c live => ?_, fun k other c live => ?_⟩
  · rw [absent]
    exact PeerSlot.moves_none _ _
  · rw [fresh, if_pos rfl] at live
    cases live
    exact ⟨rfl, rfl⟩
  · rw [fresh, if_neg (Ne.symm other)] at live
    exact ⟨c, live, rfl, rfl⟩

/-- A hello that completes a connection makes it from its draft under the next id and introduces it;
its endpoint is one of the draft's, and no live connection is found there. -/
theorem register_completed (l : Lobby) (endpoint : Address) (token : OrderNumber) (hello : Hello)
    (now : Instant) (completed : (l.register endpoint token hello now).1 = .ok (.completed id)) :
    id = l.registry.nextId ∧ l.registry.connectionAt? endpoint = none ∧
      ∃ pending tokens address others,
        endpoint ∈ address :: others ∧ (l.register endpoint token hello now).2 =
        { l with registry :=
          ({ l.registry with pending, tokens }.enrol hello.nonce address others now).2 }.introduce
            id now := by
  have answers := l.registry.answers_register endpoint token hello now
  have result : (l.registry.register endpoint token hello now).1 = .ok (.completed id) := by
    rw [← (l.register_alike endpoint token hello now).1]
    exact completed
  have lobby : (l.register endpoint token hello now).2
      = { l with registry := (l.registry.register endpoint token hello now).2 }.introduce id
      now := by
    simp only [register, result]
  rw [lobby]
  generalize l.registry.register endpoint token hello now = outcome at answers result
  cases answers with
  | apart _ _ other | dropped _ _ other => exact absurd result (other id)
  | waits => cases result
  | completes bound tokens address others free new binds complete room =>
    have own : endpoint ∈ address :: others :=
      Draft.endpoints_of_complete? complete ▸ (Draft.bind_ok binds).2
    cases result
    exact ⟨rfl, free, _, tokens, address, others, own, rfl⟩

theorem opens_register (l : Lobby) (endpoint : Address) (token : OrderNumber) (hello : Hello)
    (now : Instant) (completed : (l.register endpoint token hello now).1 = .ok (.completed id)) :
    id = l.registry.nextId ∧ Opens l (l.register endpoint token hello now).2 id := by
  obtain ⟨rfl, _, pending, tokens, address, others, _, lobby⟩ :=
    l.register_completed endpoint token hello now completed
  rw [lobby]
  exact ⟨rfl, opens_introduce (opens_enrol l pending tokens hello.nonce address others now) now⟩

theorem Opens.keyed (opens : Opens l l' id) (keyed : l.registry.Keyed) : l'.registry.Keyed := by
  intro k c' live
  by_cases same : k = id
  · subst same
    exact (opens.fresh c' live).1
  · obtain ⟨c, before, sameId, _⟩ := opens.lasts k same c' live
    rw [sameId]
    exact keyed k c before

end

/-! ## What is reported of a close -/

/-- What is reported when a connection is closed says why. -/
theorem events_close (l : Lobby) (id : ConnectionId) (reason : DisconnectReason) :
    ∀ e ∈ (l.close id reason).2.events, e ∈ l.events ∨ ∃ k, e = .disconnected k reason := by
  have told (l : Lobby) (c : Connection) :
      ∀ e ∈ (l.farewell c reason).events, e ∈ l.events ∨ ∃ k, e = .disconnected k reason := by
    refine List.foldlRecOn l.watchers _ (motive := fun l' : Lobby => ∀ e ∈ l'.events,
      e ∈ l.events ∨ ∃ k, e = .disconnected k reason) (fun e mem => .inl mem) ?_
    intro l' kept watcher _ e mem
    cases watcher with
    | events =>
      rcases List.mem_append.1 mem with old | new
      · exact kept e old
      · exact .inr ⟨c.id, List.mem_singleton.1 new⟩
    | peers | greeter | record => exact kept e mem
  unfold close
  split
  · exact told _ _
  · exact fun e mem => .inl mem

theorem watchers_close (l : Lobby) (id : ConnectionId) (reason : DisconnectReason) :
    (l.close id reason).2.watchers = l.watchers := by
  have told (l : Lobby) (c : Connection) : (l.farewell c reason).watchers = l.watchers := by
    refine List.foldlRecOn l.watchers _ (motive := fun l' : Lobby => l'.watchers = l.watchers)
      rfl ?_
    intro l' kept watcher _
    cases watcher <;> exact kept
  unfold close
  split
  · exact told _ _
  · rfl

/-- The host hears of a connection that is closed, if it listens. -/
theorem disconnected_mem_close {l : Lobby} (listens : .events ∈ l.watchers) {id : ConnectionId}
    {c : Connection} (live : l.registry.connection? id = some c) (own : c.id = id)
    (reason : DisconnectReason) :
    .disconnected id reason ∈ (l.close id reason).2.events := by
  have told (watchers : List Watcher) (l : Lobby)
      (heard : .events ∈ watchers ∨ .disconnected id reason ∈ l.events) :
      .disconnected id reason ∈ (watchers.foldl (farewellTo c.markClosed reason) l).events := by
    induction watchers generalizing l with
    | nil => exact heard.resolve_left List.not_mem_nil
    | cons watcher rest ih =>
      apply ih
      cases watcher with
      | events =>
        right
        rw [← own]
        exact List.mem_append_right _ (List.mem_singleton_self _)
      | peers | greeter | record => simpa [farewellTo] using heard
  simp only [close, Registry.remove, live]
  exact told _ _ (.inl listens)

end Lobby
end DatagramSession
