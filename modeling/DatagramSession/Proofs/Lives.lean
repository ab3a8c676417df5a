import DatagramSession.Proofs.Bookkeeping
/-!
# What is reported of connections

The outbound states, the events for the host and the notices of a recording watcher follow the
registry; `Lobby.InStep` says how, given what has been taken from the lobby before (`History`).
Whatever is `Quiet` keeps them in step (`InStep.quiet`), and so do the two things that are reported:
that a connection is closed (`InStep.close`) and that one is opened (`InStep.register`).
-/
namespace DatagramSession

/-- The connection that an event is about, if it says that one came or went. -/
def Event.subject? : Event → Option ConnectionId
  | .connected id _ | .disconnected id _ => some id
  | .denied _ _ | .violation _ _ => none

/-- What events say about one connection. -/
def about (id : ConnectionId) (events : List Event) : List Event :=
  events.filter (·.subject? = some id)

/-- What is reported of an id: nothing before a connection is opened under it, then once that it
came, and when it is live no longer, once and at last that it went. -/
inductive Life (id : ConnectionId) : (opened live : Bool) → List Event → Prop where
  | ahead : Life id false false []
  | running (address : Address) : Life id true true [.connected id address]
  | over (address : Address) (reason : DisconnectReason) :
      Life id true false [.connected id address, .disconnected id reason]

section
variable {id : ConnectionId} {events more : List Event}

theorem about_append : about id (events ++ more) = about id events ++ about id more :=
  List.filter_append _ _

theorem about_of_silent (silent : ∀ e ∈ more, e.subject? ≠ some id) : about id more = [] :=
  List.filter_eq_nil_iff.2 fun e mem => by simpa using silent e mem

theorem Life.opens (h : Life id false false events) (address : Address) :
    Life id true true (events ++ [.connected id address]) := by
  cases h
  exact .running address

theorem Life.closes {opened : Bool} (h : Life id opened true events) (reason : DisconnectReason) :
    Life id opened false (events ++ [.disconnected id reason]) := by
  cases h with
  | running address => exact .over address reason

theorem Life.opened {opened : Bool} (h : Life id opened true events) : opened = true := by
  cases h
  rfl

end

/-- What has been taken from a lobby, and the connections that were opened, in order. -/
structure History where
  events : List Event := []
  notices : List Notice := []
  opened : List ConnectionId := []

namespace Lobby

/-- Nothing has been reported of any connection: no connection or peer came or went. -/
structure Quiet (l l' : Lobby) : Prop where
  watchers : l'.watchers = l.watchers
  next : l'.registry.nextId = l.registry.nextId
  live : ∀ k, (l'.registry.connection? k).map (fun c => (c.id, c.closed)) =
    (l.registry.connection? k).map fun c => (c.id, c.closed)
  peers : ∀ k, (l'.peers.find? k).isSome = (l.peers.find? k).isSome
  events : ∃ more, l'.events = l.events ++ more ∧ ∀ e ∈ more, e.subject? = none
  notices : l'.notices = l.notices

section
variable {l l' l'' : Lobby}

theorem Quiet.trans (first : Quiet l l') (second : Quiet l' l'') : Quiet l l'' := by
  refine ⟨second.watchers.trans first.watchers, second.next.trans first.next,
    fun k => (second.live k).trans (first.live k), fun k => (second.peers k).trans (first.peers k),
    ?_, second.notices.trans first.notices⟩
  obtain ⟨some, appended, silent⟩ := first.events
  obtain ⟨more, appended', silent'⟩ := second.events
  refine ⟨some ++ more, by rw [appended', appended, List.append_assoc], fun e mem => ?_⟩
  exact (List.mem_append.1 mem).elim (silent e) (silent' e)

theorem quiet_registry {r : Registry} (connections : r.connections = l.registry.connections)
    (next : r.nextId = l.registry.nextId) : Quiet l { l with registry := r } := by
  refine ⟨rfl, next, fun k => ?_, fun _ => rfl, ⟨[], (List.append_nil _).symm, nofun⟩, rfl⟩
  simp only [Registry.connection?, connections]

theorem quiet_refl (l : Lobby) : Quiet l l :=
  quiet_registry rfl rfl

theorem quiet_peers {peers : PeerMap ConnectionId}
    (kept : ∀ k, (peers.find? k).isSome = (l.peers.find? k).isSome) :
    Quiet l { l with peers } :=
  ⟨rfl, rfl, fun _ => rfl, kept, ⟨[], (List.append_nil _).symm, nofun⟩, rfl⟩

theorem quiet_report {e : Event} (silent : e.subject? = none) : Quiet l (l.report e) :=
  ⟨rfl, rfl, fun _ => rfl, fun _ => rfl, ⟨[e], rfl, fun _ mem => List.mem_singleton.1 mem ▸ silent⟩,
    rfl⟩

theorem quiet_modify {id : ConnectionId} {f : Connection → Connection}
    (kept : ∀ c, (f c).id = c.id ∧ (f c).closed = c.closed) : Quiet l (l.modify id f) := by
  refine ⟨rfl, rfl, fun k => ?_, fun _ => rfl, ⟨[], (List.append_nil _).symm, nofun⟩, rfl⟩
  simp only [modify, Registry.modify, Registry.connection?, Table.find?_modify]
  split
  · cases l.registry.connections.find? k <;> simp [kept]
  · rfl

theorem quiet_expirePending (l : Lobby) (now : Instant) (timeout : Duration) :
    Quiet l (l.expirePending now timeout).2 := by
  obtain ⟨pending, tokens, result, _⟩ := l.registry.expirePending_eq now timeout
  have lobby : (l.expirePending now timeout).2 =
      { l with registry := { l.registry with pending, tokens } } := by
    rw [← result]
    rfl
  rw [lobby]
  exact quiet_registry rfl rfl

/-- A hello that completes nothing is not reported. -/
theorem quiet_register {endpoint : Address} {token : OrderNumber} {hello : Hello} {now : Instant}
    (other : completedId? (l.register endpoint token hello now).1 = none) :
    Quiet l (l.register endpoint token hello now).2 := by
  have answers := l.registry.answers_register endpoint token hello now
  unfold register at other ⊢
  generalize l.registry.register endpoint token hello now = outcome at answers other
  dsimp only at other ⊢
  split
  case h_1 id completed =>
    rw [completed] at other
    cases other
  case h_2 =>
    cases answers with
    | apart | dropped | waits => exact quiet_registry rfl rfl
    | completes => cases other

theorem Quiet.before (quiet : Quiet l l') {k : ConnectionId} {c' : Connection}
    (live : l'.registry.connection? k = some c') :
    ∃ c, l.registry.connection? k = some c ∧ c'.id = c.id ∧ c'.closed = c.closed := by
  have same := quiet.live k
  rw [live] at same
  obtain ⟨c, before, same⟩ := Option.map_eq_some_iff.1 same.symm
  exact ⟨c, before, (congrArg Prod.fst same).symm, (congrArg Prod.snd same).symm⟩

theorem Quiet.isSome (quiet : Quiet l l') (k : ConnectionId) :
    (l'.registry.connection? k).isSome = (l.registry.connection? k).isSome := by
  have same := congrArg Option.isSome (quiet.live k)
  rwa [Option.isSome_map, Option.isSome_map] at same

end

/-! ## In step -/

/-- The peers are the live connections, which are not marked closed; of each id what is reported is
its life; and a recording watcher has noted all that it was shown: new connections, which were open,
and those that have left, which were marked closed. -/
structure InStep (listeners : List Watcher) (past : History) (l : Lobby) : Prop where
  watchers : l.watchers = .peers :: .events :: listeners
  numbered : l.registry.Numbered past.opened.length
  keyed : l.registry.Keyed
  known : ∀ id ∈ past.opened, id.toNat ≤ past.opened.length
  peers : ∀ id, (l.peers.find? id).isSome = (l.registry.connection? id).isSome
  unclosed : ∀ id c, l.registry.connection? id = some c → c.closed = false
  lives : ∀ id, Life id (decide (id ∈ past.opened)) (l.registry.connection? id).isSome
    (about id (past.events ++ l.events))
  added : ∀ id pending closed, .added id pending closed ∈ past.notices ++ l.notices → closed = false
  removed : ∀ id reason closed, .removed id reason closed ∈ past.notices ++ l.notices →
    closed = true ∧ id ∈ past.opened ∧ l.registry.connection? id = none
  recorded : .record ∈ listeners → ∀ id ∈ past.opened, l.registry.connection? id = none →
    ∃ reason, .removed id reason true ∈ past.notices ++ l.notices

section
variable {listeners : List Watcher} {past : History} {l l' : Lobby}

theorem InStep.quiet (h : l.InStep listeners past) (quiet : Quiet l l') :
    l'.InStep listeners past := by
  have gone (k : ConnectionId) : l'.registry.connection? k = none ↔
      l.registry.connection? k = none := by
    rw [← Option.isNone_iff_eq_none, ← Option.isNone_iff_eq_none, ← Option.not_isSome,
      ← Option.not_isSome, quiet.isSome]
  refine ⟨quiet.watchers.trans h.watchers, ⟨quiet.next ▸ h.numbered.next, fun k c live => ?_⟩,
    fun k c live => ?_, h.known, fun k => ?_, fun k c live => ?_, fun k => ?_, ?_, ?_, ?_⟩
  · obtain ⟨c₀, before, _⟩ := quiet.before live
    exact h.numbered.live k c₀ before
  · obtain ⟨c₀, before, same, _⟩ := quiet.before live
    exact same.trans (h.keyed k c₀ before)
  · rw [quiet.peers, quiet.isSome]
    exact h.peers k
  · obtain ⟨c₀, before, _, same⟩ := quiet.before live
    exact same.trans (h.unclosed k c₀ before)
  · obtain ⟨more, appended, silent⟩ := quiet.events
    have unsaid : about k more = [] := about_of_silent fun e mem => by rw [silent e mem]; nofun
    rw [quiet.isSome, appended, ← List.append_assoc, about_append, unsaid, List.append_nil]
    exact h.lives k
  · rw [quiet.notices]
    exact h.added
  · intro id reason closed noted
    rw [quiet.notices] at noted
    obtain ⟨marked, known, left⟩ := h.removed id reason closed noted
    exact ⟨marked, known, (gone id).2 left⟩
  · intro watching id known left
    rw [quiet.notices]
    exact h.recorded watching id known ((gone id).1 left)

theorem InStep.opened (h : l.InStep listeners past) {id : ConnectionId} {c : Connection}
    (live : l.registry.connection? id = some c) : id ∈ past.opened := by
  have life := h.lives id
  rw [live] at life
  exact of_decide_eq_true life.opened

/-! ## A connection that is closed -/

theorem close_of_absent {id : ConnectionId} (absent : l.registry.connection? id = none)
    (reason : DisconnectReason) :
    (l.close id reason).2 = l := by
  simp only [close, Registry.remove, absent]

/-- Listeners, who come after the peers and the events. -/
def Listening (listeners : List Watcher) : Prop :=
  ∀ w ∈ listeners, w = .greeter ∨ w = .record

theorem foldl_farewellTo (listening : Listening listeners) (c : Connection)
    (reason : DisconnectReason) (l : Lobby) :
    listeners.foldl (farewellTo c reason) l =
      { l with
        notices := l.notices ++ List.replicate (listeners.count .record)
          (.removed c.id reason c.closed) } := by
  induction listeners generalizing l with
  | nil => simp
  | cons w rest ih =>
    obtain ⟨first, later⟩ := List.forall_mem_cons.1 listening
    rw [List.foldl_cons, ih later]
    rcases first with rfl | rfl
    · simp [farewellTo]
    · simp [farewellTo, List.replicate_succ]

theorem close_of_live (watchers : l.watchers = .peers :: .events :: listeners)
    (listening : Listening listeners) {id : ConnectionId} {c : Connection}
    (live : l.registry.connection? id = some c) (own : c.id = id) (reason : DisconnectReason) :
    (l.close id reason).2 = { l with
      registry := (l.registry.remove id).2
      peers := l.peers.erase id
      events := l.events ++ [.disconnected id reason]
      notices := l.notices ++ List.replicate (listeners.count .record)
        (.removed id reason true) } := by
  subst own
  simp only [close, Registry.remove, live, farewell, watchers, List.foldl_cons,
    foldl_farewellTo listening]
  rfl

/-- A connection that is closed leaves the registry and the peers, and is reported once. -/
theorem InStep.close (h : l.InStep listeners past) (listening : Listening listeners)
    (id : ConnectionId) (reason : DisconnectReason) :
    (l.close id reason).2.InStep listeners past := by
  cases live : l.registry.connection? id with
  | none =>
    rw [close_of_absent live]
    exact h
  | some c =>
    rw [close_of_live h.watchers listening live (h.keyed id c live)]
    have connection? (k : ConnectionId) := l.registry.connection?_remove id k
    refine ⟨h.watchers, ⟨?_, fun k c' live' => ?_⟩, fun k c' live' => ?_, h.known, fun k => ?_,
      fun k c' live' => ?_, fun k => ?_, ?_, ?_, ?_⟩
    · rw [Registry.nextId_remove]
      exact h.numbered.next
    · exact h.numbered.live k c' (Registry.connection?_remove_eq_some.1 live').2
    · exact h.keyed k c' (Registry.connection?_remove_eq_some.1 live').2
    · rw [connection?, Table.find?_erase]
      split
      · rfl
      · exact h.peers k
    · exact h.unclosed k c' (Registry.connection?_remove_eq_some.1 live').2
    · rw [connection?, ← List.append_assoc, about_append]
      have life := h.lives k
      split
      case isTrue same =>
        subst same
        rw [live] at life
        simpa [about, Event.subject?] using life.closes reason
      case isFalse other =>
        have unsaid : about k [.disconnected id reason] = [] := by
          simpa [about, Event.subject?] using other
        rw [unsaid, List.append_nil]
        exact life
    · intro k pending closed noted
      simp only [← List.append_assoc, List.mem_append (t := List.replicate _ _), List.mem_replicate,
        reduceCtorEq, and_false, or_false] at noted
      exact h.added k pending closed noted
    · intro k reason' closed noted
      rw [connection?]
      rw [← List.append_assoc] at noted
      rcases List.mem_append.1 noted with old | new
      · obtain ⟨marked, known, left⟩ := h.removed k reason' closed old
        refine ⟨marked, known, ?_⟩
        split
        · rfl
        · exact left
      · cases (List.mem_replicate.1 new).2
        exact ⟨rfl, h.opened live, if_pos rfl⟩
    · intro watching k known left
      rw [connection?] at left
      rw [← List.append_assoc]
      split at left
      case isTrue same =>
        subst same
        have counted : listeners.count .record ≠ 0 := (List.count_pos_iff.2 watching).ne'
        exact ⟨reason, List.mem_append_right _ (List.mem_replicate.2 ⟨counted, rfl⟩)⟩
      case isFalse =>
        obtain ⟨reason', noted⟩ := h.recorded watching k known left
        exact ⟨reason', List.mem_append_left _ noted⟩

/-! ## A connection that is opened -/

/-- The next connection, which the peers and the events have heard of. -/
theorem InStep.enrol (h : l.InStep listeners past) (few : past.opened.length + 1 < UInt32.size - 1)
    (pending : Table Nonce Draft) (tokens : Table Address OrderNumber) (nonce : Nonce)
    (address : Address) (others : List Address) (now : Instant) :
    InStep listeners { past with opened := past.opened ++ [l.registry.nextId] } { l with
      registry := ({ l.registry with pending, tokens }.enrol nonce address others now).2
      peers := (l.peers.add l.registry.nextId).2
      events := l.events ++ [.connected l.registry.nextId address] } := by
  have next := h.numbered.next
  have fresh := h.numbered.fresh
  have unknown : l.registry.nextId ∉ past.opened := by
    intro old
    have := h.known _ old
    omega
  have numbered : Registry.Numbered { l.registry with pending, tokens } past.opened.length :=
    ⟨h.numbered.next, h.numbered.live⟩
  have connection? (k : ConnectionId) :
      ({ l.registry with pending, tokens }.enrol nonce address others now).2.connection? k =
        if l.registry.nextId = k then some (.fresh l.registry.nextId nonce address others now)
        else l.registry.connection? k :=
    Registry.connection?_enrol _ nonce address others now k
  refine ⟨h.watchers, ?_, fun k c live => ?_, fun k opened => ?_, fun k => ?_, fun k c live => ?_,
    fun k => ?_, h.added, ?_, ?_⟩
  · rw [List.length_append]
    exact Registry.numbered_enrol numbered few nonce address others now
  · rw [connection?] at live
    split at live
    case isTrue same =>
      cases live
      exact same
    case isFalse => exact h.keyed k c live
  · rw [List.length_append]
    rcases List.mem_append.1 opened with old | new
    · exact Nat.le_succ_of_le (h.known k old)
    · rw [List.mem_singleton.1 new]
      exact Nat.le_of_eq next
  · rw [connection?, PeerMap.isSome_add]
    split
    case isTrue same => simp [same]
    case isFalse other => simpa [other] using h.peers k
  · rw [connection?] at live
    split at live
    case isTrue =>
      cases live
      rfl
    case isFalse => exact h.unclosed k c live
  · rw [connection?, ← List.append_assoc, about_append]
    have life := h.lives k
    split
    case isTrue same =>
      subst same
      rw [fresh, decide_eq_false unknown] at life
      simpa [about, Event.subject?] using life.opens address
    case isFalse other =>
      have unsaid : about k [.connected l.registry.nextId address] = [] := by
        simpa [about, Event.subject?] using other
      have opened : k ∈ past.opened ++ [l.registry.nextId] ↔ k ∈ past.opened := by
        simp [Ne.symm other]
      rw [unsaid, List.append_nil, decide_eq_decide.2 opened]
      exact life
  · intro k reason closed noted
    obtain ⟨marked, known, left⟩ := h.removed k reason closed noted
    refine ⟨marked, List.mem_append_left _ known, ?_⟩
    have other : l.registry.nextId ≠ k := by
      rintro rfl
      exact unknown known
    rw [connection?, if_neg other]
    exact left
  · intro watching k known left
    rw [connection?] at left
    split at left
    case isTrue => cases left
    case isFalse other =>
      refine h.recorded watching k ((List.mem_append.1 known).resolve_right fun new => ?_) left
      exact other (List.mem_singleton.1 new).symm

/-- The other listeners hear of a new connection while it is open. -/
theorem InStep.announceTo (h : l.InStep listeners past) {c : Connection}
    (unclosed : c.closed = false) (now : Instant) {w : Watcher}
    (listener : w = .greeter ∨ w = .record) : (announceTo c now l w).InStep listeners past := by
  rcases listener with rfl | rfl
  · have noted : Quiet l (l.modify c.id (·.setAttribute joinedAt (.instant now))) :=
      quiet_modify fun _ => ⟨rfl, rfl⟩
    exact h.quiet (noted.trans (quiet_peers (PeerMap.isSome_enqueue l.peers c.id (greeting c.id))))
  · refine ⟨h.watchers, h.numbered, h.keyed, h.known, h.peers, h.unclosed, h.lives, ?_, ?_, ?_⟩
    · intro k pending closed noted
      simp only [Lobby.announceTo, ← List.append_assoc, List.mem_append (t := [_]),
        List.mem_singleton] at noted
      rcases noted with old | new
      · exact h.added k pending closed old
      · cases new
        exact unclosed
    · intro k reason closed noted
      simp only [Lobby.announceTo, ← List.append_assoc, List.mem_append (t := [_]),
        List.mem_singleton, reduceCtorEq, or_false] at noted
      exact h.removed k reason closed noted
    · intro watching k known left
      obtain ⟨reason, noted⟩ := h.recorded watching k known left
      simp only [Lobby.announceTo, ← List.append_assoc]
      exact ⟨reason, List.mem_append_left _ noted⟩

theorem announce_eq (watchers : l.watchers = .peers :: .events :: listeners) (c : Connection)
    (now : Instant) :
    l.announce c now = listeners.foldl (announceTo c now)
      { l with peers := (l.peers.add c.id).2, events := l.events ++ [.connected c.id c.address] } :=
  congrArg (List.foldl (announceTo c now) l) watchers

theorem InStep.announce (watchers : l.watchers = .peers :: .events :: listeners)
    (listening : Listening listeners) {c : Connection} (unclosed : c.closed = false) (now : Instant)
    (h : InStep listeners past
      { l with peers := (l.peers.add c.id).2, events := l.events ++ [.connected c.id c.address] }) :
    (l.announce c now).InStep listeners past := by
  rw [announce_eq watchers]
  refine List.foldlRecOn listeners _ (motive := InStep listeners past) h ?_
  intro l' inStep w member
  exact inStep.announceTo unclosed now (listening w member)

theorem InStep.introduce (h : l.InStep listeners past) (listening : Listening listeners)
    (few : past.opened.length + 1 < UInt32.size - 1) (pending : Table Nonce Draft)
    (tokens : Table Address OrderNumber) (nonce : Nonce) (address : Address) (others : List Address)
    (now : Instant) :
    ({ l with
      registry := ({ l.registry with pending, tokens }.enrol nonce address others now).2 }.introduce
        l.registry.nextId now).InStep listeners
        { past with opened := past.opened ++ [l.registry.nextId] } := by
  let c : Connection := .fresh l.registry.nextId nonce address others now
  let entered : Lobby :=
    { l with registry := ({ l.registry with pending, tokens }.enrol nonce address others now).2 }
  have live : entered.registry.connection? l.registry.nextId = some c := by
    rw [Registry.connection?_enrol, if_pos rfl]
  have announced := InStep.announce (l := entered) (c := c) h.watchers listening rfl now
    (h.enrol few pending tokens nonce address others now)
  have introduced : entered.introduce l.registry.nextId now =
      (entered.announce c now).modify l.registry.nextId fun c =>
      (c.tell (.registered l.registry.nextId)).tell .servicesReady := by
    simp only [Lobby.introduce, live]
    rfl
  rw [introduced]
  exact announced.quiet (quiet_modify fun _ => ⟨rfl, rfl⟩)

/-- A hello that completes a connection adds it to the registry and to the peers, and it is reported
once. -/
theorem InStep.register (h : l.InStep listeners past) (listening : Listening listeners)
    {endpoint : Address} {token : OrderNumber} {hello : Hello} {now : Instant} {id : ConnectionId}
    (completed : (l.register endpoint token hello now).1 = .ok (.completed id))
    (few : past.opened.length + 1 < UInt32.size - 1) :
    (l.register endpoint token hello now).2.InStep listeners
      { past with opened := past.opened ++ [id] } := by
  obtain ⟨rfl, _, pending, tokens, address, others, _, lobby⟩ :=
    l.register_completed endpoint token hello now completed
  rw [lobby]
  exact h.introduce listening few pending tokens hello.nonce address others now

end

end Lobby
end DatagramSession
