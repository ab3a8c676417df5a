import DatagramSession.Proofs.Bookkeeping
import Mathlib.Data.List.Dedup
import Mathlib.Data.List.Perm.Subperm
/-!
# Tokens of endpoints that are held

The token of a hello is noted before it is known what becomes of the hello, so each way out has to
let go of exactly the endpoints that nothing holds any more.  `Registry.Tidy` lists the endpoints
whose tokens are loose meanwhile; no request leaves any behind (`Tidy.register`, `Tidy.remove`,
`Tidy.expirePending`), so that an endpoint which nothing holds can start again with any token
(`tokens_of_held`).
-/
namespace DatagramSession

namespace Registry

/-- The endpoints of live connections and of drafts. -/
def held (r : Registry) : List Address :=
  r.connections.values.flatMap Connection.endpoints ++ r.pending.values.flatMap Draft.endpoints

/-- Tokens are kept only for endpoints that are held, or loose. -/
def Tidy (r : Registry) (loose : List Address) : Prop :=
  ∀ e token, r.tokens.find? e = some token → e ∈ r.held ∨ e ∈ loose

section
variable {r r' : Registry} {e : Address} {loose : List Address}

theorem mem_held_iff : e ∈ r.held ↔ (∃ id c, r.connection? id = some c ∧ e ∈ c.endpoints) ∨
    ∃ nonce d, r.pending.find? nonce = some d ∧ e ∈ d.endpoints := by
  simp only [held, List.mem_append, List.mem_flatMap, Table.mem_values_iff]
  refine or_congr ?_ ?_
  · constructor
    · rintro ⟨c, ⟨id, live⟩, has⟩
      exact ⟨id, c, live, has⟩
    · rintro ⟨id, c, live, has⟩
      exact ⟨c, ⟨id, live⟩, has⟩
  · constructor
    · rintro ⟨d, ⟨nonce, waits⟩, has⟩
      exact ⟨nonce, d, waits, has⟩
    · rintro ⟨nonce, d, waits, has⟩
      exact ⟨d, ⟨nonce, waits⟩, has⟩

theorem Alike.held (h : Alike r r') : e ∈ r.held → e ∈ r'.held := by
  rw [mem_held_iff, mem_held_iff]
  rintro (⟨id, live⟩ | drafted)
  · exact Or.inl ⟨id, h.endpoint.1 live⟩
  · rw [h.rest]
    exact Or.inr drafted

theorem mem_held_of_connectionAt? (leads : r.Leads) {c : Connection}
    (found : r.connectionAt? e = some c) :
    e ∈ r.held := by
  obtain ⟨id, points, _⟩ := Option.bind_eq_some_iff.1 found
  obtain ⟨c', live, has⟩ := leads e id points
  exact mem_held_iff.2 (Or.inl ⟨id, c', live, has⟩)

/-- What the registry takes for held is held. -/
theorem mem_held_of_holds (leads : r.Leads) (holds : r.holds e = true) : e ∈ r.held := by
  rw [mem_held_iff]
  rcases Bool.or_eq_true_iff.1 holds with led | drafted
  · obtain ⟨id, points⟩ := Option.isSome_iff_exists.1 led
    obtain ⟨c, live, has⟩ := leads e id points
    exact Or.inl ⟨id, c, live, has⟩
  · obtain ⟨d, known, has⟩ := List.any_eq_true.1 drafted
    obtain ⟨nonce, waits⟩ := Table.mem_values_iff.1 known
    exact Or.inr ⟨nonce, d, waits, by simpa [Draft.hasEndpoint] using has⟩

/-! ## Loose tokens -/

theorem Tidy.mono {looser : List Address} (h : r.Tidy loose) (more : loose ⊆ looser) :
    r.Tidy looser :=
  fun e token kept => (h e token kept).imp id fun less => more less

/-- Nothing that was held is let go, and what was loose is held now. -/
theorem Tidy.grow (h : r.Tidy loose) (tokens : r'.tokens = r.tokens)
    (still : ∀ e ∈ r.held, e ∈ r'.held) (caught : ∀ e ∈ loose, e ∈ r'.held) : r'.Tidy [] := by
  intro e token kept
  rw [tokens] at kept
  exact Or.inl ((h e token kept).elim (still e) (caught e))

theorem tidy_note (h : r.Tidy loose) (endpoint : Address) (token : OrderNumber) :
    (r.note endpoint token).Tidy (endpoint :: loose) := by
  intro e token' kept
  simp only [note, Table.find?_insert] at kept
  split at kept
  case isTrue same => exact Or.inr (same ▸ List.mem_cons_self)
  case isFalse => exact (h e token' kept).imp id (List.mem_cons_of_mem endpoint)

/-- The endpoints of a draft that is taken out become loose. -/
theorem tidy_undraft (h : r.Tidy loose) {nonce : Nonce} {endpoints : List Address}
    (own : ∀ d, r.pending.find? nonce = some d → d.endpoints ⊆ endpoints) :
    Tidy { r with pending := r.pending.erase nonce } (endpoints ++ loose) := by
  intro e token kept
  rcases h e token kept with holds | less
  · rcases mem_held_iff.1 holds with live | ⟨n, d, waits, has⟩
    · exact Or.inl (mem_held_iff.2 (Or.inl live))
    · by_cases same : nonce = n
      · subst same
        exact Or.inr (List.mem_append_left _ (own d waits has))
      · refine Or.inl (mem_held_iff.2 (Or.inr ⟨n, d, ?_, has⟩))
        rw [Table.find?_erase, if_neg same]
        exact waits
  · exact Or.inr (List.mem_append_right _ less)

theorem tidy_releaseToken (leads : r.Leads) (h : r.Tidy (e :: loose)) :
    (r.releaseToken e).Tidy loose := by
  intro e' token kept
  unfold releaseToken at kept ⊢
  split at kept
  case isTrue holds =>
    rw [if_pos holds]
    rcases h e' token kept with held | less
    · exact Or.inl held
    · rcases List.mem_cons.1 less with rfl | later
      · exact Or.inl (mem_held_of_holds leads holds)
      · exact Or.inr later
  case isFalse unheld =>
    rw [if_neg unheld]
    rw [Table.find?_erase] at kept
    split at kept
    case isTrue => cases kept
    case isFalse other =>
      refine (h e' token kept).imp id fun less => ?_
      exact (List.mem_cons.1 less).resolve_left (Ne.symm other)

theorem tidy_releaseTokens {endpoints : List Address} (leads : r.Leads) (h : r.Tidy endpoints) :
    (r.releaseTokens endpoints).Tidy [] := by
  unfold releaseTokens
  induction endpoints generalizing r with
  | nil => exact h
  | cons e rest ih =>
    refine ih ?_ (tidy_releaseToken leads h)
    rw [releaseToken_eq]
    exact leads

/-! ## Hellos -/

/-- With the token noted and the draft taken out, the draft's endpoints and the hello's are
loose. -/
theorem tidy_withdraw (h : r.Tidy []) (endpoint : Address) (token : OrderNumber) (hello : Hello)
    (now : Instant) :
    ((r.note endpoint token).withdraw hello).Tidy
      ((r.draftFor hello now).endpoints ++ [endpoint]) := by
  refine tidy_undraft (tidy_note h endpoint token) fun d waits => ?_
  have waits' : r.pending.find? hello.nonce = some d := waits
  rw [draftFor, waits']
  exact List.Subset.refl _

/-- The draft that is bound has all of these endpoints. -/
theorem mem_bound_of_loose {hello : Hello} {now : Instant} {endpoint : Address} {bound : Draft}
    (binds : (r.draftFor hello now).bind hello.channel endpoint = .ok bound) :
    ∀ e ∈ (r.draftFor hello now).endpoints ++ [endpoint], e ∈ bound.endpoints := by
  intro e loose
  rw [Draft.mem_endpoints_of_bind binds]
  exact (List.mem_append.1 loose).imp id List.mem_singleton.1

theorem held_enrol (fresh : r.connection? r.nextId = none) (nonce : Nonce) (address : Address)
    (others : List Address) (now : Instant) :
    (∀ e ∈ r.held, e ∈ (r.enrol nonce address others now).2.held) ∧
    ∀ e ∈ address :: others, e ∈ (r.enrol nonce address others now).2.held := by
  have live (id : ConnectionId) := connection?_enrol r nonce address others now id
  constructor
  · intro e holds
    rw [mem_held_iff] at holds ⊢
    refine holds.imp ?_ id
    rintro ⟨id, c, old, has⟩
    have other : r.nextId ≠ id := by
      rintro rfl
      rw [fresh] at old
      cases old
    exact ⟨id, c, by rw [live, if_neg other]; exact old, has⟩
  · intro e own
    exact mem_held_iff.2
      (Or.inl ⟨r.nextId, .fresh r.nextId nonce address others now, by rw [live, if_pos rfl], own⟩)

theorem Tidy.register (h : r.Tidy []) (leads : r.Leads) (fresh : r.connection? r.nextId = none)
    (endpoint : Address) (token : OrderNumber) (hello : Hello) (now : Instant) :
    (r.register endpoint token hello now).2.Tidy [] := by
  have noted := tidy_note h endpoint token
  have withdrawn := tidy_withdraw h endpoint token hello now
  have exits := r.exits_register endpoint token hello now
  generalize r.register endpoint token hello now = outcome at exits
  cases exits with
  | stale => exact h
  | duplicate _ c found | inUse _ c found =>
    refine noted.grow rfl (fun _ => id) fun e own => ?_
    rw [List.mem_singleton.1 own]
    exact mem_held_of_connectionAt? (r := r) leads found
  | taken => exact tidy_releaseToken (r := r.note endpoint token) leads noted
  | violates =>
    exact tidy_releaseTokens (r := (r.note endpoint token).withdraw hello) leads withdrawn
  | rejected _ _ _ bound binds =>
    exact tidy_releaseTokens (r := (r.note endpoint token).withdraw hello) leads
      (withdrawn.mono (mem_bound_of_loose binds))
  | waits _ _ _ _ bound binds =>
    refine withdrawn.grow rfl (fun e holds => ?_) fun e own => ?_
    · rw [mem_held_iff] at holds ⊢
      refine holds.imp id ?_
      rintro ⟨nonce, d, waits, has⟩
      refine ⟨nonce, d, ?_, has⟩
      rw [Table.find?_insert]
      split
      case isTrue same =>
        have gone : (r.pending.erase hello.nonce).find? nonce = some d := waits
        rw [Table.find?_erase, if_pos same] at gone
        cases gone
      case isFalse => exact waits
    · refine mem_held_iff.2 (Or.inr ⟨hello.nonce, bound, ?_, mem_bound_of_loose binds e own⟩)
      rw [Table.find?_insert, if_pos rfl]
  | completes _ _ _ _ bound binds address others complete =>
    obtain ⟨still, own⟩ :=
      held_enrol (r := (r.note endpoint token).withdraw hello) fresh hello.nonce address others now
    refine withdrawn.grow rfl still fun e loose => own e ?_
    rw [← Draft.endpoints_of_complete? complete]
    exact mem_bound_of_loose binds e loose

/-! ## Removals and expiries -/

theorem Tidy.remove (h : r.Tidy []) (id : ConnectionId) : (r.remove id).2.Tidy [] := by
  cases live : r.connection? id with
  | none =>
    rw [remove_of_absent live]
    exact h
  | some c =>
    have left (key : ConnectionId) (c' : Connection) :
        (r.remove id).2.connection? key = some c' ↔ id ≠ key ∧ r.connection? key = some c' :=
      connection?_remove_eq_some
    rw [remove_of_live live] at left ⊢
    intro e token kept
    rw [Table.find?_foldl_erase] at kept
    split at kept
    case isTrue => cases kept
    case isFalse foreign =>
      have holds := (h e token kept).resolve_right List.not_mem_nil
      rw [mem_held_iff] at holds
      refine Or.inl (mem_held_iff.2 (holds.imp ?_ fun drafted => drafted))
      rintro ⟨key, c', old, has⟩
      refine ⟨key, c', (left key c').2 ⟨?_, old⟩, has⟩
      rintro rfl
      rw [live] at old
      cases old
      exact foreign has

/-- Each draft that is discarded is the one that waits under its nonce. -/
theorem tidy_foldl_discard {drafts : List Draft} (leads : r.Leads) (h : r.Tidy [])
    (own : ∀ draft ∈ drafts, ∀ d, r.pending.find? draft.nonce = some d → d = draft) :
    (drafts.foldl discard r).Tidy [] := by
  induction drafts generalizing r with
  | nil => exact h
  | cons draft rest ih =>
    have erased : Tidy { r with pending := r.pending.erase draft.nonce } draft.endpoints := by
      rw [← List.append_nil draft.endpoints]
      refine tidy_undraft h fun d waits => ?_
      rw [own draft List.mem_cons_self d waits]
      exact List.Subset.refl _
    rw [List.foldl_cons]
    refine ih ?_ (tidy_releaseTokens (r := { r with pending := r.pending.erase draft.nonce }) leads
      erased) ?_
    · rw [discard, releaseTokens_eq]
      exact leads
    · intro later mem d waits
      rw [discard, releaseTokens_eq] at waits
      exact own later (List.mem_cons_of_mem _ mem) d (Table.find?_of_find?_erase waits)

theorem Tidy.expirePending (h : r.Tidy []) (consistent : r.Consistent) (now : Instant)
    (timeout : Duration) :
    (r.expirePending now timeout).2.Tidy [] := by
  refine tidy_foldl_discard consistent.leads h fun draft old d waits => ?_
  obtain ⟨nonce, stored⟩ := Table.mem_values_iff.1 (List.mem_of_mem_filter old)
  rw [(consistent.drafts nonce draft stored).nonce, stored] at waits
  exact (Option.some.inj waits).symm

/-! ## Endpoints that nothing holds -/

theorem not_isStale_of_not_held (h : r.Tidy []) (free : e ∉ r.held) (token : OrderNumber) :
    r.isStale e token = false := by
  cases kept : r.tokens.find? e with
  | none => simp [isStale, kept]
  | some last => exact absurd ((h e last kept).resolve_right List.not_mem_nil) free

/-- A hello with a nonce of its own from an endpoint that nothing holds is taken up, whatever its
token is. -/
theorem register_of_not_held (h : r.Tidy []) (consistent : r.Consistent) (free : e ∉ r.held)
    (token : OrderNumber) {hello : Hello} (now : Instant)
    (matching : hello.game = r.game ∧ hello.version = r.version)
    (channel : hello.channel.toNat < r.channels) (undrafted : r.pending.find? hello.nonce = none)
    (unused : r.byNonce.find? hello.nonce = none) :
    (r.register e token hello now).1 ∈
      [.ok .pending, .ok (.completed r.nextId),
        (.ok (.rejected "Server full") : Except RegistrationError _)] := by
  have vacant : (r.draftFor hello now).slots[hello.channel.toNat]? = some none := by
    rw [draftFor, undrafted]
    have inside : hello.channel.toNat < max r.channels 1 :=
      Nat.lt_of_lt_of_le channel (Nat.le_max_left _ _)
    simp [Draft.empty, inside]
  have exits := r.exits_register e token hello now
  generalize r.register e token hello now = outcome at exits
  cases exits with
  | stale old =>
    rw [not_isStale_of_not_held h free] at old
    cases old
  | duplicate _ c found | inUse _ c found =>
    exact absurd (mem_held_of_connectionAt? consistent.leads found) free
  | taken _ _ c live =>
    rw [connectionOf?, unused] at live
    cases live
  | violates _ _ _ error unbound =>
    rw [Draft.bind, vacant] at unbound
    cases unbound
  | rejected _ _ _ bound _ reason refuses =>
    cases refuses with
    | mismatch foreign => exact absurd matching fun same => foreign.elim (· same.1) (· same.2)
    | full => simp
  | waits => simp
  | completes => simp [enrol, note, withdraw]

theorem Tidy.keys_subset (h : r.Tidy []) : r.tokens.keys ⊆ r.held := by
  intro e kept
  obtain ⟨token, kept⟩ := Option.isSome_iff_exists.1 (Table.mem_keys_iff.1 kept)
  exact (h e token kept).resolve_right List.not_mem_nil

/-- There are no more tokens than held endpoints, each counted once. -/
theorem Tidy.size_le (h : r.Tidy []) : r.tokens.size ≤ r.held.dedup.length := by
  have distinct : r.tokens.keys.Subperm r.held.dedup :=
    List.Nodup.subperm r.tokens.unique fun e kept => List.mem_dedup.2 (h.keys_subset kept)
  simpa [Table.keys, Table.size] using distinct.length_le

end

end Registry

namespace Lobby

theorem tidy_after (game : String) (version : UInt32) (channels maxClients : Nat)
    (watchers : List Watcher) (requests : List Request)
    (few : (opened game version channels maxClients watchers).enrolled requests < UInt32.size - 1) :
    ((opened game version channels maxClients watchers).after requests).registry.Tidy [] := by
  refine (after_induct (motive := fun r => r.Tidy [] ∧ r.Consistent)
    (numbered_opened game version channels maxClients watchers) few ⟨nofun, consistent_opened ..⟩ ?_
    ?_ ?_ ?_).1
  · rintro r r' alike ⟨tidy, consistent⟩
    refine ⟨tidy.grow ?_ (fun _ => alike.held) nofun, alike.consistent consistent⟩
    rw [alike.rest]
  · rintro r endpoint token hello now fresh ⟨tidy, consistent⟩
    exact ⟨tidy.register consistent.leads fresh endpoint token hello now,
      consistent.register fresh endpoint token hello now⟩
  · rintro r id ⟨tidy, consistent⟩
    exact ⟨tidy.remove id, consistent.remove id⟩
  · rintro r now timeout ⟨tidy, consistent⟩
    exact ⟨tidy.expirePending consistent now timeout, consistent.expirePending now timeout⟩

/-- Throughout a run, whatever became of the hellos in it: the endpoints with tokens are endpoints
of live connections or of drafts, so that there are no more tokens than such endpoints.  A hello
from an endpoint that nothing holds is not stale, whatever its token is, and with a nonce of its
own, for a channel that there is and the right game, it is taken up. -/
theorem tokens_of_held (game : String) (version : UInt32) (channels maxClients : Nat)
    (watchers : List Watcher) (requests : List Request)
    (few : (opened game version channels maxClients watchers).enrolled requests < UInt32.size - 1) :
    let r := ((opened game version channels maxClients watchers).after requests).registry
    r.tokens.keys ⊆ r.held ∧ r.tokens.size ≤ r.held.dedup.length ∧
      ∀ e, e ∉ r.held → ∀ token, r.isStale e token = false ∧
        ∀ (hello : Hello) (now : Instant), hello.game = game → hello.version = version →
          hello.channel.toNat < max channels 1 → r.pending.find? hello.nonce = none →
          r.byNonce.find? hello.nonce = none →
          (r.register e token hello now).1 ∈
            [.ok .pending, .ok (.completed r.nextId),
              (.ok (.rejected "Server full") : Except RegistrationError _)] := by
  intro r
  obtain ⟨consistent, set⟩ :=
    consistent_after game version channels maxClients watchers requests few
  have tidy : r.Tidy [] := tidy_after game version channels maxClients watchers requests few
  refine ⟨tidy.keys_subset, tidy.size_le,
    fun e free token => ⟨Registry.not_isStale_of_not_held tidy free token, ?_⟩⟩
  intro hello now game' version' inside undrafted unused
  have set_game : r.game = game := congrArg (·.1) set
  have set_version : r.version = version := congrArg (·.2.1) set
  have set_channels : r.channels = max channels 1 := congrArg (·.2.2.1) set
  exact Registry.register_of_not_held tidy consistent free token now
    ⟨game'.trans set_game.symm, version'.trans set_version.symm⟩ (set_channels ▸ inside) undrafted
    unused

/-- Two channels and one place: an endpoint is shared by two drafts, a hello is for a channel that
there is not, another for a channel that is bound, and one draft is turned away at its last channel.
What is left belongs to the live connection and to the draft that waits, and the endpoint that was
turned away can start from token 0. -/
theorem tokens_of_held_crowded :
    let at_ (port : UInt16) : Address := ⟨.v4 2130706433, port⟩
    let requests : List Request := [
      .hello (at_ 5000) 9 ⟨1, 0, "courier", 1⟩ 0,
      .hello (at_ 5001) 9 ⟨1, 1, "courier", 1⟩ 0,
      .hello (at_ 5002) 9 ⟨2, 0, "courier", 1⟩ 0,
      .hello (at_ 5002) 10 ⟨3, 0, "courier", 1⟩ 0,
      .hello (at_ 5003) 9 ⟨2, 7, "courier", 1⟩ 0,
      .hello (at_ 5004) 9 ⟨3, 0, "courier", 1⟩ 0,
      .hello (at_ 5005) 9 ⟨4, 0, "courier", 1⟩ 0,
      .hello (at_ 5006) 9 ⟨4, 1, "courier", 1⟩ 0,
      .hello (at_ 5007) 9 ⟨5, 1, "courier", 1⟩ 0]
    (opened "courier" 1 2 1 [.peers, .events]).enrolled requests = 1 ∧
      ((opened "courier" 1 2 1 [.peers, .events]).after requests).registry.tokens.keys =
        [at_ 5000, at_ 5001, at_ 5007] ∧
      ((opened "courier" 1 2 1 [.peers, .events]).after requests).registry.tokens.keys ⊆
        ((opened "courier" 1 2 1 [.peers, .events]).after requests).registry.held ∧
      (((opened "courier" 1 2 1 [.peers, .events]).after requests).registry.register (at_ 5006) 0
        ⟨6, 1, "courier", 1⟩ 0).1 = .ok .pending := by
  intro at_ requests
  have enrolled : (opened "courier" 1 2 1 [.peers, .events]).enrolled requests = 1 := by
    decide +kernel
  have few : (opened "courier" 1 2 1 [.peers, .events]).enrolled requests < UInt32.size - 1 := by
    rw [enrolled]
    decide
  refine ⟨enrolled, ?_, ?_, ?_⟩
  · decide +kernel
  · exact (tokens_of_held "courier" 1 2 1 [.peers, .events] requests few).1
  · decide +kernel

end Lobby

end DatagramSession
