import DatagramSession.Proofs.Hubs
/-!
# The ledgers of a hub

`Hub.Tallies` ties the record of a hub to its parties: what each client and each connection have
sent and received fits what they hold, and what a connection was queued is what it has pushed.  A
client and a connection that were opened for nobody else are paired.  Every step keeps it
(`step_tallies`).  Once an id has been given out twice, nothing is claimed of it any more.
-/
namespace DatagramSession.Hub

/-- The id was given out once at most. -/
def Once (w : Hub) (k : ConnectionId) : Prop :=
  w.opened.countP (·.1 = k) ≤ 1

instance (w : Hub) (k : ConnectionId) : Decidable (w.Once k) :=
  inferInstanceAs (Decidable (_ ≤ _))

/-- The server has opened no connection for the client but this one, and this one for no other
client. -/
def Apart (w : Hub) (a : Address) (k : ConnectionId) : Prop :=
  w.Once k ∧ ∀ o ∈ w.opened, o.1 = k ↔ o.2 = a

instance (w : Hub) (a : Address) (k : ConnectionId) : Decidable (w.Apart a k) :=
  inferInstanceAs (Decidable (_ ∧ _))

/-- Neither has sent more envelopes than order numbers can tell apart. -/
def Few (w : Hub) (a : Address) (k : ConnectionId) : Prop :=
  (w.up a).length ≤ halfRange ∧ (w.down k).length ≤ halfRange

instance (w : Hub) (a : Address) (k : ConnectionId) : Decidable (w.Few a k) :=
  inferInstanceAs (Decidable (_ ∧ _))

/-- `mine` and `theirs` are what each client and each connection have sent and received. -/
structure Tallies (w : Hub) (mine : Address → Half) (theirs : ConnectionId → Half) : Prop where
  client : ∀ a, (mine a).Tally (w.clients a).seat (some (w.clients a).inbound) (w.up a) (w.handed a)
  server : ∀ k, w.Once k →
    (theirs k).Tally (w.slot k) (Sessions.inboundOf? w.server k) (w.down k)
    (theirs k).receiving.delivered
  queued : ∀ k, w.Once k → (w.slot k).isSome = true →
    (w.queued k).map Queued.command = (theirs k).sending.pushed
  new : ∀ a ∉ w.connected, mine a = {}
  unused : ∀ k, (∀ o ∈ w.opened, o.1 ≠ k) → theirs k = {} ∧ w.slot k = none
  paired : ∀ a k, w.Apart a k → w.Few a k → Paired (mine a) (theirs k)

section
variable {w w' : Hub} {mine : Address → Half} {theirs : ConnectionId → Half} {a : Address}
  {k : ConnectionId}

/-! ## Steps of the clients -/

/-- Who has not connected has no outbound state. -/
theorem Sound.seat_of_new (sound : w.Sound) (new : a ∉ w.connected) :
    (w.clients a).seat = none := by
  have off := sound.idle a new
  have empty : (w.clients a).outbound = none := sound.tidy a (by rw [off]; rfl)
  simpa [Client.seat, off] using empty

/-- A client goes on. -/
theorem Tallies.onClient (h : w.Tallies mine theirs) (c : Client) (built : List Envelope)
    (fresh : List Command) {connected : List Address} {t : Half} (grown : w.connected ⊆ connected)
    (new : a ∉ connected → t = {})
    (tally : t.Tally c.seat (some c.inbound) (w.up a ++ built) (w.handed a ++ fresh))
    (paired : ∀ k, w.Apart a k → w.Few a k → t.sending.mail.length ≤ halfRange →
      Paired t (theirs k)) :
    { w with
      clients := Function.update w.clients a c
      connected := connected
      up := noted w.up a built
      handed := noted w.handed a fresh }.Tallies (Function.update mine a t) theirs where
  client b := by
    by_cases same : b = a
    · subst same
      simpa using tally
    · simpa only [Function.update_of_ne same, noted_of_ne same] using h.client b
  server := h.server
  queued := h.queued
  new b later := by
    by_cases same : b = a
    · subst same
      rw [Function.update_self]
      exact new later
    · rw [Function.update_of_ne same]
      exact h.new b fun old => later (grown old)
  unused := h.unused
  paired b k apart few := by
    have before : w.Apart b k := apart
    have fewer : w.Few b k := ⟨Nat.le_trans length_le_noted few.1, few.2⟩
    by_cases same : b = a
    · subst same
      rw [Function.update_self]
      apply paired k before fewer
      rw [tally.length, ← noted_self]
      exact few.1
    · rw [Function.update_of_ne same]
      exact h.paired b k before fewer

theorem Tallies.movesClient (h : w.Tallies mine theirs) (sound : w.Sound) {c : Client}
    {built : List Envelope} (moves : Client.Moves none built (w.clients a) c) : ∃ mine', { w with
      clients := Function.update w.clients a c
      up := noted w.up a built }.Tallies mine' theirs := by
  obtain ⟨s, does, still, tally⟩ := (h.client a).moves moves.seat
  have on := h.onClient c built [] (List.Subset.refl w.connected)
    (fun new => by rw [still (sound.seat_of_new new), h.new a new])
    (by simpa [moves.inbound] using tally) fun k apart few fewer =>
    (h.paired a k apart few).does does fewer
  rw [noted_nil] at on
  exact ⟨_, on⟩

theorem Tallies.connect (h : w.Tallies mine theirs) (first : a ∉ w.connected) (nonce : Nonce) :
    { w with
      clients := Function.update w.clients a ((w.clients a).connect nonce).2
      connected := w.connected ++ [a] }.Tallies mine theirs := by
  have blank := h.new a first
  have tally := h.client a
  rw [blank] at tally
  obtain ⟨sent, handed⟩ := tally.fresh
  obtain ⟨seat, _, inbound⟩ := (w.clients a).connect_restarts nonce
  have begins : (mine a).Tally ((w.clients a).connect nonce).2.seat
      (some ((w.clients a).connect nonce).2.inbound) (w.up a ++ []) (w.handed a ++ []) := by
    rw [seat, inbound, sent, handed, blank]
    exact .begins
  have on := h.onClient _ [] [] (List.subset_append_left w.connected [a]) (fun _ => blank) begins
    fun k apart few _ => h.paired a k apart few
  simpa only [noted_nil, Function.update_eq_self] using on

/-- The calls of the clients are beside the point. -/
theorem Tallies.recalled (h : w.Tallies mine theirs) (calls : Address → List (Call ClientHandler))
    (listening : Address → List (List ClientHandler)) :
    { w with calls, listening }.Tallies mine theirs :=
  ⟨h.client, h.server, h.queued, h.new, h.unused, h.paired⟩

/-- Whoever built an envelope for a connection has it on record. -/
theorem Tallies.mail_of_down (h : w.Tallies mine theirs) {e : Envelope} (sent : e ∈ w.down k) :
    ∃ m : Mail, m.envelope = e ∧ (w.Once k → m ∈ (theirs k).sending.mail) := by
  by_cases once : w.Once k
  · obtain ⟨m, posted, same⟩ := (h.server k once).posted sent
    exact ⟨m, same, fun _ => posted⟩
  · exact ⟨⟨e, 0, []⟩, rfl, fun again => absurd again once⟩

theorem Tallies.hearDown (h : w.Tallies mine theirs) (sound : w.Sound) {e : Envelope}
    (own : (k, a) ∈ w.opened) (sent : e ∈ w.down k) {sequence : UInt32} {bytes : List UInt8}
    (carried : Wire.decode bytes = .ok (.numbered sequence (.envelope e))) :
    ∃ mine', (w.hearDown a e bytes).Tallies mine' theirs := by
  obtain ⟨refused, taken⟩ := (w.clients a).takeDatagram_envelope carried
  unfold Hub.hearDown Client.hands
  by_cases accepts : (w.clients a).accepts e
  · obtain ⟨c, moves, result⟩ := taken accepts
    simp only [accepts, if_true, result]
    obtain ⟨registered, newer⟩ := Bool.and_eq_true_iff.1 accepts
    obtain ⟨m, rfl, posted⟩ := h.mail_of_down sent
    have mark := (h.client a).inbound _ rfl
    obtain ⟨s, does, _, tally⟩ := (h.client a).moves moves.seat
    have known : a ∈ w.connected := by
      by_contra new
      rw [sound.idle a new] at registered
      cases registered
    have on := h.onClient { c with inbound := ⟨some m.envelope.order⟩ } [] _
      (List.Subset.refl w.connected) (fun new => absurd known new) (tally.takes newer) ?_
    · rw [noted_nil] at on
      exact ⟨_, on.recalled _ _⟩
    intro k' apart few fewer
    -- the client has one connection only, so that the envelope comes from the one that it is paired
    -- with
    have same : k = k' := (apart.2 _ own).2 rfl
    subst same
    apply (h.paired a k apart few).takes ?_ (posted apart.1) (mark ▸ newer) does fewer
    rw [(h.server k apart.1).length]
    exact few.2
  · have old : (w.clients a).accepts e = false := by simpa using accepts
    obtain ⟨mine', kept⟩ := h.movesClient sound (refused old)
    rw [noted_nil] at kept
    simp only [old, Bool.false_eq_true, if_false, noted_nil]
    exact ⟨mine', kept.recalled _ _⟩

/-! ## Steps of the server -/

/-- Whatever becomes of a slot, some continuation of the record goes with it. -/
theorem Tallies.follows (h : w.Tallies mine theirs) (k : ConnectionId)
    (origin? : Option (ConnectionId × Nat)) {heard : Option Envelope} {built : List Envelope}
    {slot' : PeerSlot} (moves : PeerSlot.Moves heard built (w.slot k) slot')
    (quiet : built = [] ∨ heard = none ∧ PeerSlot.Drained (w.slot k) slot') :
    ∃ s, Sending.Does heard (theirs k).sending s ∧ (w.slot k = none → s = (theirs k).sending) ∧
      (w.Once k →
        Half.Tally ⟨s, (theirs k).receiving⟩ slot' (Sessions.inboundOf? w.server k)
          (w.down k ++ built) (theirs k).receiving.delivered ∧
        (slot'.isSome = true →
          (w.queued k ++ (PeerSlot.queued (w.slot k) slot').map (Queued.mk origin?)).map
            Queued.command = s.pushed)) := by
  by_cases once : w.Once k
  · obtain ⟨s, does, still, tally, pushed⟩ := (h.server k once).queues moves quiet
    refine ⟨s, does, still, fun _ => ⟨tally, fun present => ?_⟩⟩
    rw [pushed present, ← h.queued k once (moves.isSome present)]
    simp [Function.comp_def]
  · exact ⟨_, .rest _, fun _ => rfl, fun again => absurd again once⟩

/-- The live connections go on, or end. -/
theorem Tallies.movesServer (h : w.Tallies mine theirs) (origin? : Option (ConnectionId × Nat))
    {s : Server} {built : ConnectionId → List Envelope}
    (moves : Lobby.Moves (fun _ => none) built w.server.lobby s.lobby)
    (quiet : ∀ k, built k = [] ∨ PeerSlot.Drained (w.slot k) (s.lobby.peers.find? k)) :
    ∃ theirs', { w.serve origin? s with down := fun k => w.down k ++ built k }.Tallies mine
      theirs' := by
  choose sending does still known using fun k =>
    h.follows k origin? (moves.slots k) ((quiet k).imp_right fun drained => ⟨rfl, drained⟩)
  refine ⟨fun k => ⟨sending k, (theirs k).receiving⟩, h.client, ?_, fun k once => (known k once).2,
    h.new, ?_, ?_⟩
  · exact fun k once => (known k once).1.mono (Sessions.inboundOf?_of_lasts (moves.lasts k))
  · intro k unused
    obtain ⟨nothing, empty⟩ := h.unused k unused
    refine ⟨?_, ((moves.slots k).absent empty).1⟩
    simp only [still k empty, nothing]
  · intro a k apart few
    have fewer : w.Few a k := ⟨few.1, Nat.le_trans (by simp) few.2⟩
    refine ((h.paired a k apart fewer).symm.does (does k) ?_).symm
    rw [(known k apart.1).1.length]
    exact few.2

theorem Tallies.keepsServer (h : w.Tallies mine theirs) (origin? : Option (ConnectionId × Nat))
    {s : Server} (keeps : Server.Keeps (fun _ => none) w.server s) :
    ∃ theirs', (w.serve origin? s).Tallies mine theirs' := by
  obtain ⟨theirs', kept⟩ := h.movesServer origin? keeps.lobby fun _ => .inl rfl
  simp only [List.append_nil] at kept
  exact ⟨theirs', kept⟩

theorem once_of_enlist {id : ConnectionId} {endpoint : Address}
    (once : (w.enlist id endpoint).Once k) :
    w.Once k ∧ (k = id → ∀ o ∈ w.opened, o.1 ≠ k) := by
  have count : (w.enlist id endpoint).opened.countP (·.1 = k)
      = w.opened.countP (·.1 = k) + [(id, endpoint)].countP (·.1 = k) := List.countP_append
  unfold Once at once ⊢
  rw [count] at once
  refine ⟨Nat.le_trans (Nat.le_add_right _ _) once, ?_⟩
  rintro rfl o mem same
  have twice : 0 < w.opened.countP (·.1 = k) := List.countP_pos_iff.2 ⟨o, mem, by simpa using same⟩
  simp only [List.countP_singleton, decide_true, if_true] at once
  omega

theorem apart_of_enlist {id : ConnectionId} {endpoint : Address}
    (apart : (w.enlist id endpoint).Apart a k) :
    w.Apart a k :=
  ⟨(once_of_enlist apart.1).1, fun o mem => apart.2 o (List.mem_append_left _ mem)⟩

/-- The record of a connection that is opened under an unused id. -/
theorem Tallies.begins (h : w.Tallies mine theirs) {id : ConnectionId} {slot' : PeerSlot}
    (unused : ∀ o ∈ w.opened, o.1 ≠ id)
    (slot : w.slot id = none → PeerSlot.Moves none [] PeerSlot.connected slot') : ∃ sending,
      Sending.Does none {} sending ∧ Half.Tally ⟨sending, {}⟩ slot' (some {}) (w.down id) [] ∧
      (slot'.isSome = true → sending.pushed = PeerSlot.queued none slot') := by
  obtain ⟨blank, empty⟩ := h.unused id unused
  have once : w.Once id := by
    have none : w.opened.countP (·.1 = id) = 0 := List.countP_eq_zero.2 fun o mem => by
      simpa using unused o mem
    exact Nat.le_trans (Nat.le_of_eq none) (Nat.zero_le 1)
  have nothing := h.server id once
  rw [blank] at nothing
  obtain ⟨sending, does, _, tally, pushed⟩ := Half.Tally.begins.queues (slot empty) (.inl rfl)
  rw [nothing.fresh.1]
  exact ⟨sending, does, tally, fun present => pushed present⟩

/-- A connection is opened. -/
theorem Tallies.opens (h : w.Tallies mine theirs) {s : Server} {id : ConnectionId}
    (endpoint : Address) (opens : Lobby.Opens w.server.lobby s.lobby id) :
    ∃ theirs', ((w.enlist id endpoint).serve none s).Tallies mine theirs' := by
  have others (k : ConnectionId) (other : k ≠ id) : s.lobby.peers.find? k = w.slot k :=
    opens.others k other
  -- Nothing is known of an id that is given out again.
  obtain ⟨sending, begins⟩ : ∃ sending, (∀ o ∈ w.opened, o.1 ≠ id) → _ := by
    by_cases unused : ∀ o ∈ w.opened, o.1 ≠ id
    · obtain ⟨sending, known⟩ := h.begins unused opens.slot
      exact ⟨sending, fun _ => known⟩
    · exact ⟨{}, fun again => absurd again unused⟩
  refine ⟨Function.update theirs id ⟨sending, {}⟩, h.client, ?_, ?_, h.new, ?_, ?_⟩
  · intro k once
    obtain ⟨before, new⟩ := once_of_enlist once
    by_cases same : k = id
    · subst same
      rw [Function.update_self]
      refine (begins (new rfl)).2.1.mono fun i hi => ?_
      obtain ⟨c, live, rfl⟩ := Option.map_eq_some_iff.1 hi
      rw [(opens.fresh c live).2]
      rfl
    · rw [Function.update_of_ne same]
      have kept := (h.server k before).mono (Sessions.inboundOf?_of_lasts (opens.lasts k same))
      rwa [← others k same] at kept
  · intro k once present
    obtain ⟨before, new⟩ := once_of_enlist once
    have present : (s.lobby.peers.find? k).isSome = true := present
    by_cases same : k = id
    · subst same
      have empty : w.slot k = none := (h.unused k (new rfl)).2
      rw [Function.update_self, (begins (new rfl)).2.2 present, ← empty]
      simp [serve, enlist, slot, Function.comp_def]
    · rw [others k same] at present
      rw [Function.update_of_ne same, ← h.queued k before present]
      have still : PeerSlot.queued (w.slot k) (s.lobby.peers.find? k) = [] := by
        rw [others k same]
        exact (PeerSlot.drained_refl _).queued
      simp only [serve, enlist, slot] at still ⊢
      simp [Function.update_of_ne same, still]
  · intro k unused
    have other : k ≠ id :=
      fun same => unused (id, endpoint) (List.mem_append_right _ List.mem_cons_self) same.symm
    rw [Function.update_of_ne other]
    obtain ⟨blank, empty⟩ := h.unused k fun o mem => unused o (List.mem_append_left _ mem)
    exact ⟨blank, (others k other).trans empty⟩
  · intro a k apart few
    have before := h.paired a k (apart_of_enlist apart) few
    by_cases same : k = id
    · subst same
      have unused := (once_of_enlist apart.1).2 rfl
      obtain ⟨does, tally, _⟩ := begins unused
      rw [(h.unused k unused).1] at before
      rw [Function.update_self]
      refine (before.symm.does does ?_).symm
      rw [tally.length]
      exact few.2
    · rw [Function.update_of_ne same]
      exact before

theorem Tallies.hearBare (h : w.Tallies mine theirs) (sound : w.Sound) (endpoint : Address)
    {bytes : List UInt8} (bare : ∀ p e, Wire.decode bytes = .ok p → p.body ≠ .envelope e) :
    ∃ theirs', (w.hearBare endpoint bytes).Tallies mine theirs' := by
  unfold Hub.hearBare
  cases registered : Server.Routed.registered? (w.server.route endpoint bytes).1 with
  | none =>
    simp only [registered]
    exact h.keepsServer none (Server.route_keeps _ sound.housed.keyed endpoint bare registered)
  | some id =>
    simp only [registered]
    exact h.opens endpoint (Server.opens_route endpoint registered).2

/-- A connection takes an envelope of the client that it was opened for. -/
theorem Tallies.onTaken (h : w.Tallies mine theirs) (origin? : Option (ConnectionId × Nat))
    {s : Server} {c : Connection} {e : Envelope}
    (kept : Lobby.Keeps (Server.hearing k e) w.server.lobby s.lobby)
    (live : w.server.connection? k = some c) (newer : e.order.isNewer c.inbound.watermark = true)
    (own : (k, a) ∈ w.opened) (sent : e ∈ w.up a) : ∃ theirs', (w.serve origin?
      { s with lobby := s.lobby.modify k fun c => { c with inbound := ⟨some e.order⟩ } }).Tallies
        mine theirs' := by
  obtain ⟨m, posted, rfl⟩ := (h.client a).posted sent
  choose sending does still known using fun k => h.follows k origin? (kept.slots k) (.inl rfl)
  simp only [List.append_nil] at known
  refine ⟨Function.update (fun k => ⟨sending k, (theirs k).receiving⟩) k
    ⟨sending k, (theirs k).receiving.take m⟩, h.client, ?_, ?_, h.new, ?_, ?_⟩
  · intro j once
    by_cases same : j = k
    · subst same
      simp only [Function.update_self]
      exact (Sessions.tally_takes (known j once).1 live newer s).own
    · simp only [Function.update_of_ne same]
      exact (known j once).1.mono
        (Sessions.inboundOf?_of_lasts ((kept.lasts j).trans (Registry.lasts_modify_of_ne same _)))
  · intro j once present
    have pushed := (known j once).2 present
    by_cases same : j = k
    · subst same
      rw [Function.update_self]
      exact pushed
    · rw [Function.update_of_ne same]
      exact pushed
  · intro j unused
    have other : j ≠ k := fun same => unused (k, a) own same.symm
    rw [Function.update_of_ne other]
    obtain ⟨blank, empty⟩ := h.unused j unused
    simp only [still j empty, blank]
    exact ⟨trivial, ((kept.slots j).absent empty).1⟩
  · intro b j apart few
    have before := h.paired b j apart few
    have less : (sending j).mail.length ≤ halfRange := by
      rw [(known j apart.1).1.length]
      exact few.2
    have hears := does j
    by_cases same : j = k
    · subst same
      -- the connection was opened for one client only, and the envelope is that client's
      have partner : a = b := (apart.2 _ own).1 rfl
      subst partner
      rw [Function.update_self]
      rw [Server.hearing, if_pos rfl] at hears
      have mark := (h.server j apart.1).inbound c.inbound (by rw [Sessions.inboundOf?, live]; rfl)
      refine (before.symm.takes ?_ posted (mark ▸ newer) hears less).symm
      rw [(h.client a).length]
      exact few.1
    · rw [Function.update_of_ne same]
      rw [Server.hearing, if_neg same] at hears
      exact (before.symm.does hears less).symm

theorem Tallies.hearUp (h : w.Tallies mine theirs) (sound : w.Sound) {e : Envelope}
    (sent : e ∈ w.up a) {sequence : UInt32} {bytes : List UInt8}
    (carried : Wire.decode bytes = .ok (.numbered sequence (.envelope e))) :
    ∃ theirs', (w.hearUp a e bytes).Tallies mine theirs' := by
  obtain ⟨refused, taken⟩ := Server.route_envelope sound.housed.keyed a carried
    ((sound.posted a e sent).plain.not_forges a)
  have on : ∃ theirs',
      (w.serve (w.origin? a e) (w.server.route a bytes).2).Tallies mine theirs' := by
    cases takes : w.server.takes a e with
    | none => exact h.keepsServer _ (refused takes)
    | some result =>
      obtain ⟨id, fresh⟩ := result
      obtain ⟨s, kept, routed⟩ := taken id fresh takes
      obtain ⟨c, live, newer, _⟩ := Server.takes_eq_some sound.housed.keyed takes
      rw [routed]
      exact h.onTaken _ kept.lobby live newer (Server.opened_of_takes sound.housed takes) sent
  obtain ⟨theirs', on⟩ := on
  exact ⟨theirs', on.client, on.server, on.queued, on.new, on.unused, on.paired⟩

/-! ## Runs -/

theorem tallies_start (clientConfig : Address → ClientConfig) (serverConfig : ServerConfig)
    (serverAddress : Address) :
    (start clientConfig serverConfig serverAddress).Tallies (fun _ => {}) (fun _ => {}) where
  client _ :=
    ⟨Sending.fits_none _, fun _ same => Option.some.inj same, rfl, rfl, Sending.sound_start⟩
  server _ _ := ⟨Sending.fits_none _, nofun, rfl, rfl, Sending.sound_start⟩
  queued _ _ present := nomatch present
  new _ _ := rfl
  unused _ _ := ⟨rfl, rfl⟩
  paired _ _ _ _ := Paired.start

/-- Whatever happens, some record of the past goes with it. -/
theorem step_tallies (step : Step w w') (sound : w.Sound) (h : w.Tallies mine theirs) :
    ∃ mine' theirs', w'.Tallies mine' theirs' := by
  cases step with
  | connect a nonce first => exact ⟨mine, theirs, h.connect first nonce⟩
  | client a c act =>
    obtain ⟨mine', kept⟩ := h.movesClient sound (Client.act_moves act)
    rw [noted_nil] at kept
    exact ⟨mine', theirs, kept⟩
  | update a =>
    obtain ⟨mine', kept⟩ := h.movesClient sound (w.clients a).moves_update
    exact ⟨mine', theirs, kept⟩
  | server s act =>
    obtain ⟨theirs', kept⟩ := h.keepsServer none (Server.act_keeps act)
    exact ⟨mine, theirs', kept⟩
  | flush connections peers =>
    obtain ⟨theirs', kept⟩ := h.movesServer none (w.server.flushIn_moves _ connections peers).lobby
      fun k => .inr (w.server.drained_flushIn connections peers)
    exact ⟨mine, theirs', kept⟩
  | datagram endpoint bytes bare =>
    obtain ⟨theirs', kept⟩ := h.hearBare sound endpoint bare
    exact ⟨mine, theirs', kept⟩
  | up a e sequence bytes sent carried =>
    obtain ⟨theirs', kept⟩ := h.hearUp sound sent carried
    exact ⟨mine, theirs', kept⟩
  | down k a e sequence bytes own sent carried =>
    obtain ⟨mine', kept⟩ := h.hearDown sound own sent carried
    exact ⟨mine', theirs, kept⟩

end

end DatagramSession.Hub
