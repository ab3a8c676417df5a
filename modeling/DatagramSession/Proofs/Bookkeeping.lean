import DatagramSession.Proofs.Lobbies
import DatagramSession.Proofs.Ownership
/-!
# The books of a registry

A registry finds its connections by id, by nonce and by endpoint, and keeps its drafts apart from
them.  `Registry.Consistent` says how these tables hang together: hellos, removals and expiries keep
it (`Consistent.register`, `Consistent.remove`, `Consistent.expirePending`), so that it holds
throughout any run of a lobby (`books_balance`).
-/
namespace DatagramSession

namespace Draft

variable {d bound : Draft} {channel : UInt8} {endpoint e : Address}

/-- A draft that waits under a nonce for further hellos: some of its slots are bound and some are
not. -/
structure Waiting (d : Draft) (nonce : Nonce) (channels : Nat) : Prop where
  nonce : d.nonce = nonce
  slots : d.slots.length = channels
  filled : ∃ e, some e ∈ d.slots
  empty : none ∈ d.slots

theorem mem_endpoints_iff : e ∈ d.endpoints ↔ some e ∈ d.slots := by
  simp [endpoints]

theorem nonce_of_bind (h : d.bind channel endpoint = .ok bound) : bound.nonce = d.nonce := by
  unfold bind at h
  split at h
  case h_1 => cases h
  case h_2 =>
    split at h
    · cases h
      rfl
    · cases h
  case h_3 =>
    cases h
    rfl

/-- A slot that is bound was empty before, or held the same endpoint. -/
theorem mem_endpoints_of_bind (h : d.bind channel endpoint = .ok bound) :
    e ∈ bound.endpoints ↔ e ∈ d.endpoints ∨ e = endpoint := by
  have own : endpoint ∈ bound.endpoints := (bind_ok h).2
  unfold bind at h
  split at h
  case h_1 => cases h
  case h_2 =>
    split at h
    · cases h
      exact ⟨Or.inl, fun has => has.elim id fun same => same ▸ own⟩
    · cases h
  case h_3 vacant =>
    cases h
    refine ⟨fun has => ?_, fun has => has.elim (fun old => ?_) fun same => same ▸ own⟩
    · rw [mem_endpoints_iff] at has ⊢
      exact (List.mem_or_eq_of_mem_set has).imp id Option.some.inj
    · rw [mem_endpoints_iff] at old ⊢
      obtain ⟨i, at_i⟩ := List.mem_iff_getElem?.1 old
      refine List.mem_iff_getElem?.2 ⟨i, ?_⟩
      have other : channel.toNat ≠ i := by
        rintro rfl
        rw [vacant] at at_i
        cases at_i
      rw [List.getElem?_set_ne other]
      exact at_i

theorem none_mem_slots (incomplete : d.complete? = none) (has : e ∈ d.endpoints) :
    none ∈ d.slots := by
  by_cases complete : d.isComplete = true
  · unfold complete? at incomplete
    rw [complete] at incomplete
    cases endpoints : d.endpoints with
    | nil =>
      rw [endpoints] at has
      cases has
    | cons first rest =>
      rw [endpoints] at incomplete
      cases incomplete
  · unfold isComplete at complete
    simpa using complete

theorem length_of_complete? {address : Address} {others : List Address}
    (h : d.complete? = some (address, others)) : (address :: others).length = d.slots.length := by
  rw [← endpoints_of_complete? h]
  unfold complete? at h
  split at h
  case h_1 complete _ =>
    have bound : ∀ slot ∈ d.slots, (id slot).isSome = true := by simpa [isComplete] using complete
    exact List.filterMap_length_eq_length.2 bound
  case h_2 => cases h

end Draft

namespace Registry

/-- The tables of a registry say the same, and keep to its settings. -/
structure Consistent (r : Registry) : Prop where
  channels : 1 ≤ r.channels
  keyed : r.Keyed
  nonces : ∀ nonce id, r.byNonce.find? nonce = some id ↔ ∃ c,
    r.connection? id = some c ∧ c.nonce = nonce
  drafts : ∀ nonce d, r.pending.find? nonce = some d → d.Waiting nonce r.channels
  /-- No nonce is both pending and live. -/
  apart : ∀ nonce d, r.pending.find? nonce = some d → r.byNonce.find? nonce = none
  endpoints : ∀ id c, r.connection? id = some c → c.endpoints.length = r.channels
  leads : r.Leads
  room : r.ids.length ≤ r.maxClients

section
variable {r r' : Registry}

/-- Each nonce has at most one live connection. -/
theorem Consistent.unique (h : r.Consistent) {id other : ConnectionId} {c c' : Connection}
    (live : r.connection? id = some c) (live' : r.connection? other = some c')
    (same : c'.nonce = c.nonce) :
    id = other := by
  have first := (h.nonces c.nonce id).2 ⟨c, live, rfl⟩
  have second := (h.nonces c.nonce other).2 ⟨c', live', same⟩
  rw [first] at second
  exact Option.some.inj second

/-- A nonce that leads to no connection is in no table of live connections. -/
theorem Consistent.unused (h : r.Consistent) {nonce : Nonce} (new : r.connectionOf? nonce = none) :
    r.byNonce.find? nonce = none := by
  cases found : r.byNonce.find? nonce with
  | none => rfl
  | some id =>
    obtain ⟨c, live, _⟩ := (h.nonces nonce id).1 found
    rw [connectionOf?, found] at new
    exact absurd (live.symm.trans new) nofun

theorem length_ids (r : Registry) : r.ids.length = r.connections.size :=
  List.length_map _

theorem Alike.length_ids (h : Alike r r') : r'.ids.length = r.ids.length := by
  rw [Registry.length_ids, Registry.length_ids]
  refine Table.size_eq fun id => ?_
  have same := congrArg Option.isSome (h.identities id)
  rwa [Option.isSome_map, Option.isSome_map] at same

theorem Alike.consistent (h : Alike r r') (consistent : r.Consistent) : r'.Consistent := by
  have rest := h.rest
  have nonces (nonce : Nonce) (id : ConnectionId) :
      (∃ c, r.connection? id = some c ∧ c.nonce = nonce) ↔
      ∃ c, r'.connection? id = some c ∧ c.nonce = nonce := by
    have carried {r r' : Registry} (h : Alike r r') :
        (∃ c, r'.connection? id = some c ∧ c.nonce = nonce) →
        ∃ c, r.connection? id = some c ∧ c.nonce = nonce := by
      rintro ⟨c, live, own⟩
      obtain ⟨c₀, before, same⟩ := h.live live
      exact ⟨c₀, before, (congrArg (·.2.1) same).trans own⟩
    exact ⟨carried h.symm, carried h⟩
  refine ⟨?_, h.keyed consistent.keyed, fun nonce id => ?_, ?_, ?_, fun id c live => ?_,
    h.leads consistent.leads, ?_⟩
  · rw [rest]
    exact consistent.channels
  · rw [← nonces, rest]
    exact consistent.nonces nonce id
  · rw [rest]
    exact consistent.drafts
  · rw [rest]
    exact consistent.apart
  · obtain ⟨c₀, before, same⟩ := h.live live
    have endpoints : c₀.endpoints = c.endpoints := congrArg (·.2.2) same
    rw [rest, ← endpoints]
    exact consistent.endpoints id c₀ before
  · rw [h.length_ids, rest]
    exact consistent.room

/-- Tokens do not matter, and drafts may come as long as they wait under a nonce that is not
live. -/
theorem Consistent.redraft (h : r.Consistent) {pending : Table Nonce Draft}
    {tokens : Table Address OrderNumber}
    (drafts : ∀ nonce d, pending.find? nonce = some d → r.pending.find? nonce = some d ∨
      d.Waiting nonce r.channels ∧ r.byNonce.find? nonce = none) :
        Consistent { r with pending, tokens } :=
  ⟨h.channels, h.keyed, h.nonces,
    fun nonce d waits => (drafts nonce d waits).elim (h.drafts nonce d) And.left,
    fun nonce d waits => (drafts nonce d waits).elim (h.apart nonce d) And.right, h.endpoints,
    h.leads, h.room⟩

theorem Consistent.retoken (h : r.Consistent) (tokens : Table Address OrderNumber) :
    Consistent { r with tokens } :=
  h.redraft fun _ _ => Or.inl

/-! ## What requests keep -/

/-- The draft of a hello has the hello's nonce and a slot for each channel. -/
theorem Consistent.draftFor (h : r.Consistent) (hello : Hello) (now : Instant) :
    (r.draftFor hello now).nonce = hello.nonce ∧
    (r.draftFor hello now).slots.length = r.channels := by
  unfold Registry.draftFor
  cases found : r.pending.find? hello.nonce with
  | none =>
    refine ⟨rfl, ?_⟩
    simp only [Option.getD_none, Draft.empty, List.length_replicate]
    exact Nat.max_eq_left h.channels
  | some d => exact ⟨(h.drafts hello.nonce d found).nonce, (h.drafts hello.nonce d found).slots⟩

theorem consistent_enrol (h : r.Consistent) (fresh : r.connection? r.nextId = none) {nonce : Nonce}
    (unused : r.byNonce.find? nonce = none) (undrafted : r.pending.find? nonce = none)
    {address : Address} {others : List Address} (sized : (address :: others).length = r.channels)
    (room : r.connections.size < r.maxClients) (now : Instant) :
    (r.enrol nonce address others now).2.Consistent := by
  have byNonce (n : Nonce) : (r.enrol nonce address others now).2.byNonce.find? n =
      if nonce = n then some r.nextId else r.byNonce.find? n := Table.find?_insert _ _ _ _
  have older {id : ConnectionId} {c : Connection} (live : r.connection? id = some c) :
      r.nextId ≠ id := by
    rintro rfl
    rw [fresh] at live
    cases live
  refine ⟨h.channels, fun id c live => ?_, fun n id => ?_, h.drafts, fun n d waits => ?_,
    fun id c live => ?_, leads_enrol h.leads fresh nonce address others now, ?_⟩
  · rw [connection?_enrol] at live
    split at live
    case isTrue same =>
      cases live
      exact same
    case isFalse => exact h.keyed id c live
  · rw [byNonce, connection?_enrol]
    by_cases same : nonce = n
    · subst same
      rw [if_pos rfl]
      refine ⟨fun found => ⟨_, if_pos (Option.some.inj found), rfl⟩, fun ⟨c, live, own⟩ => ?_⟩
      split at live
      case isTrue newest => rw [newest]
      case isFalse =>
        have taken := (h.nonces nonce id).2 ⟨c, live, own⟩
        rw [unused] at taken
        cases taken
    · rw [if_neg same, h.nonces]
      constructor
      · rintro ⟨c, live, own⟩
        exact ⟨c, by rw [if_neg (older live)]; exact live, own⟩
      · rintro ⟨c, live, own⟩
        split at live
        case isTrue =>
          cases live
          exact absurd own same
        case isFalse => exact ⟨c, live, own⟩
  · rw [byNonce]
    split
    case isTrue same =>
      have waits' : r.pending.find? n = some d := waits
      rw [← same, undrafted] at waits'
      cases waits'
    case isFalse => exact h.apart n d waits
  · rw [connection?_enrol] at live
    split at live
    case isTrue =>
      cases live
      exact sized
    case isFalse => exact h.endpoints id c live
  · rw [length_ids]
    exact Nat.le_trans (Table.size_insert_le _ _ _) room

theorem remove_of_absent {id : ConnectionId} (absent : r.connection? id = none) :
    (r.remove id).2 = r := by
  simp only [remove, absent]

theorem remove_of_live {id : ConnectionId} {c : Connection} (live : r.connection? id = some c) :
    (r.remove id).2 = { r with
      connections := r.connections.erase id
      byEndpoint := c.endpoints.foldl Table.erase r.byEndpoint
      tokens := c.endpoints.foldl Table.erase r.tokens
      byNonce := r.byNonce.erase c.nonce } := by
  simp only [remove, live]

theorem connection?_remove_eq_some {id key : ConnectionId} {c : Connection} :
    (r.remove id).2.connection? key = some c ↔ id ≠ key ∧ r.connection? key = some c := by
  rw [connection?_remove]
  split <;> simp_all

/-- The nonce of a connection that leaves leads nowhere, the others lead where they did. -/
theorem Consistent.nonces_remove (h : r.Consistent) {id : ConnectionId} {c : Connection}
    (live : r.connection? id = some c) (nonce : Nonce) (key : ConnectionId) :
    (r.byNonce.erase c.nonce).find? nonce = some key ↔
      ∃ c', (r.remove id).2.connection? key = some c' ∧ c'.nonce = nonce := by
  simp only [Table.find?_erase, connection?_remove_eq_some]
  split
  case isTrue same =>
    subst same
    constructor
    · intro found
      cases found
    · rintro ⟨c', ⟨other, live'⟩, own⟩
      exact absurd (h.unique live live' own) other
  case isFalse foreign =>
    rw [h.nonces]
    constructor
    · rintro ⟨c', live', own⟩
      refine ⟨c', ⟨?_, live'⟩, own⟩
      rintro rfl
      rw [live] at live'
      cases live'
      exact foreign own
    · rintro ⟨c', ⟨_, live'⟩, own⟩
      exact ⟨c', live', own⟩

theorem Consistent.remove (h : r.Consistent) (id : ConnectionId) : (r.remove id).2.Consistent := by
  cases live : r.connection? id with
  | none =>
    rw [remove_of_absent live]
    exact h
  | some c =>
    have nonces := h.nonces_remove live
    have leads := leads_remove h.leads id
    have before {key : ConnectionId} {c' : Connection}
        (kept : (r.remove id).2.connection? key = some c') :=
      (connection?_remove_eq_some.1 kept).2
    rw [remove_of_live live] at nonces leads before ⊢
    refine ⟨h.channels, fun key c' kept => h.keyed key c' (before kept), nonces, h.drafts,
      fun nonce d waits => ?_, fun key c' kept => h.endpoints key c' (before kept), leads, ?_⟩
    · rw [Table.find?_erase]
      split
      · rfl
      · exact h.apart nonce d waits
    · rw [length_ids]
      exact Nat.le_trans (Table.size_erase_le _ _) (r.length_ids ▸ h.room)

theorem Consistent.expirePending (h : r.Consistent) (now : Instant) (timeout : Duration) :
    (r.expirePending now timeout).2.Consistent := by
  obtain ⟨pending, tokens, result, still⟩ := r.expirePending_eq now timeout
  rw [result]
  exact h.redraft fun nonce d waits => Or.inl (still nonce d waits)

theorem Consistent.withdraw (h : r.Consistent) (endpoint : Address) (token : OrderNumber)
    (hello : Hello) :
    ((r.note endpoint token).withdraw hello).Consistent :=
  h.redraft fun _ _ waits => Or.inl (Table.find?_of_find?_erase waits)

theorem Consistent.register (h : r.Consistent) (fresh : r.connection? r.nextId = none)
    (endpoint : Address) (token : OrderNumber) (hello : Hello) (now : Instant) :
    (r.register endpoint token hello now).2.Consistent := by
  have exits := r.exits_register endpoint token hello now
  generalize r.register endpoint token hello now = outcome at exits
  cases exits with
  | stale => exact h
  | duplicate | inUse => exact h.retoken _
  | taken =>
    rw [releaseToken_eq]
    exact h.retoken _
  | violates | rejected =>
    rw [releaseTokens_eq]
    exact (h.withdraw endpoint token hello).retoken _
  | waits newer free new matching bound binds incomplete =>
    obtain ⟨nonce, slots⟩ := h.draftFor hello now
    refine h.redraft fun n d waits => ?_
    rw [Table.find?_insert] at waits
    split at waits
    case isTrue same =>
      cases waits
      subst same
      obtain ⟨length, has⟩ := Draft.bind_ok binds
      exact Or.inr ⟨⟨(Draft.nonce_of_bind binds).trans nonce, length.trans slots,
        ⟨endpoint, Draft.mem_endpoints_iff.1 has⟩, Draft.none_mem_slots incomplete has⟩,
        h.unused new⟩
    case isFalse => exact Or.inl (Table.find?_of_find?_erase waits)
  | completes newer free new matching bound binds address others complete room =>
    have sized : (address :: others).length = r.channels := by
      rw [Draft.length_of_complete? complete, (Draft.bind_ok binds).1, (h.draftFor hello now).2]
    have undrafted : (r.pending.erase hello.nonce).find? hello.nonce = none := by
      rw [Table.find?_erase, if_pos rfl]
    exact consistent_enrol (h.withdraw endpoint token hello) fresh (h.unused new) undrafted sized
      room now

/-! ## Settings -/

/-- What a registry is set up with. -/
def settings (r : Registry) : String × UInt32 × Nat × Nat :=
  (r.game, r.version, r.channels, r.maxClients)

theorem Alike.settings (h : Alike r r') : r'.settings = r.settings := by
  rw [h.rest]
  rfl

theorem settings_register (r : Registry) (endpoint : Address) (token : OrderNumber) (hello : Hello)
    (now : Instant) :
    (r.register endpoint token hello now).2.settings = r.settings := by
  have answers := r.answers_register endpoint token hello now
  generalize r.register endpoint token hello now = outcome at answers
  cases answers <;> rfl

theorem settings_remove (r : Registry) (id : ConnectionId) :
    (r.remove id).2.settings = r.settings := by
  unfold remove
  split <;> rfl

theorem settings_expirePending (r : Registry) (now : Instant) (timeout : Duration) :
    (r.expirePending now timeout).2.settings = r.settings := by
  obtain ⟨pending, tokens, result, _⟩ := r.expirePending_eq now timeout
  rw [result]
  rfl

end

end Registry

namespace Lobby

/-- What hellos, removals and expiries keep holds throughout a run, if it does not depend on what is
noted about connections. -/
theorem after_induct {motive : Registry → Prop} {l : Lobby} {requests : List Request}
    (numbered : l.registry.Numbered 0) (few : l.enrolled requests < UInt32.size - 1)
    (start : motive l.registry) (alike : ∀ r r', Registry.Alike r r' → motive r → motive r')
    (register : ∀ r endpoint token hello now, r.connection? r.nextId = none → motive r →
      motive (r.register endpoint token hello now).2)
    (remove : ∀ r id, motive r → motive (r.remove id).2)
    (expire : ∀ r now timeout, motive r → motive (r.expirePending now timeout).2) :
    motive (l.after requests).registry := by
  have within (done : List Request) (before : done <+: requests) :
      motive (l.after done).registry := by
    induction done using List.reverseRecOn with
    | nil => exact start
    | append_singleton done request ih =>
      have earlier : done <+: requests := (List.prefix_append _ _).trans before
      have fresh := (numbered_within numbered few earlier).fresh
      rw [after_append_singleton]
      cases request with
      | hello endpoint token hello now =>
        exact alike _ _ ((l.after done).register_alike endpoint token hello now).2
          (register _ endpoint token hello now fresh (ih earlier))
      | close id reason =>
        rw [answer, close_registry]
        exact remove _ id (ih earlier)
      | expire now timeout => exact expire _ now timeout (ih earlier)
  exact within requests (List.prefix_refl _)

theorem consistent_opened (game : String) (version : UInt32) (channels maxClients : Nat)
    (watchers : List Watcher) :
    (opened game version channels maxClients watchers).registry.Consistent :=
  ⟨Nat.le_max_right _ _, nofun, fun _ _ => ⟨nofun, nofun⟩, nofun, nofun, nofun, nofun,
    Nat.zero_le _⟩

/-- The books of a lobby's registry are consistent, and its settings are what they were, throughout
a run. -/
theorem consistent_after (game : String) (version : UInt32) (channels maxClients : Nat)
    (watchers : List Watcher) (requests : List Request)
    (few : (opened game version channels maxClients watchers).enrolled requests < UInt32.size - 1) :
    ((opened game version channels maxClients watchers).after requests).registry.Consistent ∧
    ((opened game version channels maxClients watchers).after requests).registry.settings =
      (game, version, max channels 1, maxClients) := by
  refine after_induct
    (motive := fun r => r.Consistent ∧ r.settings = (game, version, max channels 1, maxClients))
    (numbered_opened game version channels maxClients watchers) few ⟨consistent_opened .., rfl⟩ ?_
    ?_ ?_ ?_
  · rintro r r' alike ⟨consistent, set⟩
    exact ⟨alike.consistent consistent, alike.settings.trans set⟩
  · rintro r endpoint token hello now fresh ⟨consistent, set⟩
    exact ⟨consistent.register fresh endpoint token hello now,
      (r.settings_register endpoint token hello now).trans set⟩
  · rintro r id ⟨consistent, set⟩
    exact ⟨consistent.remove id, (r.settings_remove id).trans set⟩
  · rintro r now timeout ⟨consistent, set⟩
    exact ⟨consistent.expirePending now timeout, (r.settings_expirePending now timeout).trans set⟩

/-- Throughout a run: a nonce leads to a connection just when a live connection has it, and to one
at most; drafts wait under nonces of their own, none of which is live, with a slot for each channel,
bound or not but neither all nor none; live connections have an endpoint for each channel, endpoints
lead to connections that have them, and there are no more connections than allowed. -/
theorem books_balance (game : String) (version : UInt32) (channels maxClients : Nat)
    (watchers : List Watcher) (requests : List Request)
    (few : (opened game version channels maxClients watchers).enrolled requests < UInt32.size - 1) :
    let r := ((opened game version channels maxClients watchers).after requests).registry
    r.Consistent ∧ r.channels = max channels 1 ∧ r.maxClients = maxClients ∧
      ∀ id other c c', r.connection? id = some c → r.connection? other = some c' →
      c'.nonce = c.nonce → id = other := by
  intro r
  obtain ⟨consistent, set⟩ :=
    consistent_after game version channels maxClients watchers requests few
  exact ⟨consistent, congrArg (·.2.2.1) set, congrArg (·.2.2.2) set,
    fun _ _ _ _ live live' same => consistent.unique live live' same⟩

/-- Two channels and two places: one connection is closed again, one is live, one hello is turned
away at the last channel, one draft waits and another is discarded. -/
theorem books_balance_crowded :
    let l := opened "courier" 1 2 2 [.peers, .events]
    let at_ (port : UInt16) : Address := ⟨.v4 2130706433, port⟩
    let requests : List Request := [
      .hello (at_ 5000) 0 ⟨1, 0, "courier", 1⟩ 0,
      .hello (at_ 5001) 0 ⟨1, 1, "courier", 1⟩ 0,
      .hello (at_ 5002) 0 ⟨2, 1, "courier", 1⟩ 0,
      .hello (at_ 5003) 0 ⟨2, 0, "courier", 1⟩ 0,
      .hello (at_ 5004) 0 ⟨3, 0, "courier", 1⟩ 0,
      .hello (at_ 5005) 0 ⟨3, 1, "courier", 1⟩ 0,
      .close 1 .graceful,
      .hello (at_ 5006) 0 ⟨4, 7, "courier", 1⟩ 0,
      .hello (at_ 5007) 0 ⟨5, 0, "courier", 1⟩ 0]
    l.enrolled requests = 2 ∧ (l.after requests).registry.Consistent ∧
      (l.after requests).registry.ids = [2] ∧ (l.after requests).registry.pending.keys = [5] := by
  intro l at_ requests
  have enrolled : l.enrolled requests = 2 := by decide +kernel
  have few : l.enrolled requests < UInt32.size - 1 := by rw [enrolled]; decide
  exact ⟨enrolled, (books_balance "courier" 1 2 2 [.peers, .events] requests few).1,
    by decide +kernel, by decide +kernel⟩

end Lobby

end DatagramSession
