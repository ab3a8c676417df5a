import DatagramSession.Proofs.Position
import DatagramSession.Proofs.Tokens
import Mathlib.Data.List.Chain
/-!
# Hellos that arrive again

The token of an endpoint tells a hello that was processed from a new one.  `Lobby.HeldThroughout`
says that an endpoint has been held by a draft or a live connection since some moment, and that no
connection that has it was closed meanwhile; then the token is there, each new one is strictly after
the one before, and hellos that were processed are stale when they arrive again, as long as their
tokens can be told apart on the circle (`replayed_stale`).
-/
namespace DatagramSession

namespace Registry

variable {r r' : Registry} {e : Address}

/-- Whoever is live and has the endpoint, the endpoint leads somewhere. -/
def Listed (r : Registry) (e : Address) : Prop :=
  ∀ id c, r.connection? id = some c → e ∈ c.endpoints → r.byEndpoint.contains e = true

theorem listed_of_not_held (free : e ∉ r.held) : r.Listed e := by
  intro id c live has
  exact absurd (mem_held_iff.2 (.inl ⟨id, c, live, has⟩)) free

theorem Alike.listed (h : Alike r r') (listed : r.Listed e) : r'.Listed e := by
  intro id c live has
  obtain ⟨c₀, before, has₀⟩ := h.endpoint.2 ⟨c, live, has⟩
  rw [h.byEndpoint]
  exact listed id c₀ before has₀

/-- What is held is taken for held. -/
theorem holds_of_mem_held (listed : r.Listed e) (held : e ∈ r.held) : r.holds e = true := by
  apply Bool.or_eq_true_iff.2
  rcases mem_held_iff.1 held with ⟨id, c, live, has⟩ | ⟨nonce, d, waits, has⟩
  · exact .inl (listed id c live has)
  · exact .inr (List.any_eq_true.2
      ⟨d, Table.mem_values_iff.2 ⟨nonce, waits⟩, by simpa [Draft.hasEndpoint] using has⟩)

/-! ## What keeps a token -/

theorem find?_releaseToken (holds : r.holds e = true) (endpoint : Address) :
    (r.releaseToken endpoint).tokens.find? e = r.tokens.find? e := by
  unfold releaseToken
  split
  case isTrue => rfl
  case isFalse unheld =>
    rw [Table.find?_erase, if_neg]
    rintro rfl
    exact unheld holds

theorem find?_releaseTokens (holds : r.holds e = true) (endpoints : List Address) :
    (r.releaseTokens endpoints).tokens.find? e = r.tokens.find? e := by
  unfold releaseTokens
  induction endpoints generalizing r with
  | nil => rfl
  | cons endpoint rest ih =>
    have still : (r.releaseToken endpoint).holds e = true := by
      rw [releaseToken_eq]
      exact holds
    rw [List.foldl_cons, ih still, find?_releaseToken holds]

/-! ## Hellos -/

theorem listed_enrol (listed : r.Listed e) (nonce : Nonce) (address : Address)
    (others : List Address) (now : Instant) : (r.enrol nonce address others now).2.Listed e := by
  intro id c live has
  rw [Table.contains, byEndpoint_enrol]
  rw [connection?_enrol] at live
  split at live
  case isTrue =>
    cases live
    have own : e ∈ address :: others := has
    rw [if_pos own]
    rfl
  case isFalse =>
    split
    · rfl
    · exact listed id c live has

theorem Listed.register (listed : r.Listed e) (endpoint : Address) (token : OrderNumber)
    (hello : Hello) (now : Instant) : (r.register endpoint token hello now).2.Listed e := by
  have answers := r.answers_register endpoint token hello now
  generalize r.register endpoint token hello now = outcome at answers
  cases answers with
  | apart | dropped | waits => exact listed
  | completes bound tokens address others =>
    have before : Listed { r with pending := r.pending.erase hello.nonce, tokens } e := listed
    exact listed_enrol before hello.nonce address others now

theorem mem_endpoints_draftFor {hello : Hello} {now : Instant}
    (has : e ∈ (r.draftFor hello now).endpoints) :
    e ∈ r.held := by
  unfold draftFor at has
  cases waits : r.pending.find? hello.nonce with
  | none =>
    rw [waits] at has
    simp [Draft.empty, Draft.endpoints] at has
  | some d =>
    rw [waits] at has
    exact mem_held_iff.2 (.inr ⟨hello.nonce, d, waits, has⟩)

theorem mem_held_of_undraft {nonce : Nonce}
    (held : e ∈ held { r with pending := r.pending.erase nonce }) :
    e ∈ r.held := by
  rw [mem_held_iff] at held ⊢
  apply held.imp_right
  rintro ⟨nonce, d, waits, has⟩
  exact ⟨nonce, d, Table.find?_of_find?_erase waits, has⟩

/-- A hello makes no endpoint held but its own. -/
theorem mem_held_of_register {endpoint : Address} {token : OrderNumber} {hello : Hello}
    {now : Instant} (held : e ∈ (r.register endpoint token hello now).2.held) :
    e ∈ r.held ∨ e = endpoint := by
  have answers := r.answers_register endpoint token hello now
  generalize r.register endpoint token hello now = outcome at answers held
  have bound_held {bound : Draft}
      (binds : (r.draftFor hello now).bind hello.channel endpoint = .ok bound)
      (has : e ∈ bound.endpoints) : e ∈ r.held ∨ e = endpoint :=
    ((Draft.mem_endpoints_of_bind binds).1 has).imp_left mem_endpoints_draftFor
  cases answers with
  | apart => exact .inl held
  | dropped => exact .inl (mem_held_of_undraft held)
  | waits bound tokens binds =>
    rcases mem_held_iff.1 held with live | ⟨nonce, d, waits, has⟩
    · exact .inl (mem_held_iff.2 (.inl live))
    · rw [Table.find?_insert] at waits
      split at waits
      case isTrue =>
        cases waits
        exact bound_held binds has
      case isFalse =>
        exact .inl (mem_held_iff.2 (.inr ⟨nonce, d, Table.find?_of_find?_erase waits, has⟩))
  | completes bound tokens address others _ _ binds complete =>
    rcases mem_held_iff.1 held with ⟨id, c, live, has⟩ | ⟨nonce, d, waits, has⟩
    · replace live : (enrol { r with pending := r.pending.erase hello.nonce, tokens } hello.nonce
        address others now).2.connection? id = some c := live
      rw [connection?_enrol] at live
      split at live
      case isTrue =>
        cases live
        apply bound_held binds
        rw [Draft.endpoints_of_complete? complete]
        exact has
      case isFalse => exact .inl (mem_held_iff.2 (.inl ⟨id, c, live, has⟩))
    · exact .inl (mem_held_iff.2 (.inr ⟨nonce, d, Table.find?_of_find?_erase waits, has⟩))

/-- Where an endpoint is held afterwards, a hello has replaced its token or left it as it was. -/
theorem find?_register (listed : r.Listed e) {endpoint : Address} {token : OrderNumber}
    {hello : Hello} {now : Instant} (held : e ∈ (r.register endpoint token hello now).2.held) :
    (r.register endpoint token hello now).2.tokens.find? e =
      if endpoint = e ∧ r.isStale e token = false then some token else r.tokens.find? e := by
  have exits := r.exits_register endpoint token hello now
  generalize r.register endpoint token hello now = outcome at exits held
  have noted (newer : r.isStale endpoint token = false) : (r.note endpoint token).tokens.find? e =
      if endpoint = e ∧ r.isStale e token = false then some token else r.tokens.find? e := by
    simp only [note, Table.find?_insert]
    by_cases own : endpoint = e
    · subst own
      simp [newer]
    · simp [own]
  cases exits with
  | stale old =>
    rw [if_neg]
    rintro ⟨rfl, newer⟩
    rw [old] at newer
    cases newer
  | duplicate newer | inUse newer => exact noted newer
  | taken newer =>
    rw [releaseToken_eq] at held
    have holds : (r.note endpoint token).holds e = true :=
      holds_of_mem_held (r := r.note endpoint token) listed held
    rw [find?_releaseToken holds, noted newer]
  | violates newer | rejected newer =>
    rw [releaseTokens_eq] at held
    have holds : ((r.note endpoint token).withdraw hello).holds e = true :=
      holds_of_mem_held (r := (r.note endpoint token).withdraw hello) listed held
    rw [find?_releaseTokens holds]
    exact noted newer
  | waits newer => exact noted newer
  | completes newer => exact noted newer

/-! ## Removals and expiries -/

theorem Listed.remove (listed : r.Listed e) {id : ConnectionId}
    (foreign : ∀ c, r.connection? id = some c → e ∉ c.endpoints) :
    (r.remove id).2.Listed e ∧ (r.remove id).2.tokens.find? e = r.tokens.find? e := by
  cases live : r.connection? id with
  | none =>
    rw [remove_of_absent live]
    exact ⟨listed, rfl⟩
  | some c =>
    have other := foreign c live
    constructor
    · intro key c' left has
      rw [Table.contains, byEndpoint_remove r live, if_neg other]
      exact listed key c' (connection?_remove_eq_some.1 left).2 has
    · rw [remove_of_live live, Table.find?_foldl_erase, if_neg other]

theorem mem_held_of_remove {id : ConnectionId} (held : e ∈ (r.remove id).2.held) : e ∈ r.held := by
  cases live : r.connection? id with
  | none => rwa [remove_of_absent live] at held
  | some c =>
    rw [mem_held_iff] at held ⊢
    apply held.imp
    · rintro ⟨key, c', left, has⟩
      exact ⟨key, c', (connection?_remove_eq_some.1 left).2, has⟩
    · rw [remove_of_live live]
      exact fun drafted => drafted

theorem mem_held_of_discard {draft : Draft} (held : e ∈ (r.discard draft).held) : e ∈ r.held := by
  rw [discard, releaseTokens_eq] at held
  exact mem_held_of_undraft held

theorem mem_held_of_foldl_discard {drafts : List Draft} (held : e ∈ (drafts.foldl discard r).held) :
    e ∈ r.held := by
  induction drafts generalizing r with
  | nil => exact held
  | cons draft rest ih => exact mem_held_of_discard (ih held)

theorem Listed.discard (listed : r.Listed e) (draft : Draft) : (r.discard draft).Listed e := by
  rw [Registry.discard, releaseTokens_eq]
  exact listed

/-- What is still held after all drafts are gone was held while each of them went. -/
theorem find?_foldl_discard (listed : r.Listed e) {drafts : List Draft}
    (held : e ∈ (drafts.foldl discard r).held) :
    (drafts.foldl discard r).tokens.find? e = r.tokens.find? e := by
  induction drafts generalizing r with
  | nil => rfl
  | cons draft rest ih =>
    have first : e ∈ (r.discard draft).held := mem_held_of_foldl_discard held
    rw [List.foldl_cons, ih (listed.discard draft) held]
    rw [discard, releaseTokens_eq] at first
    have holds : holds { r with pending := r.pending.erase draft.nonce } e = true :=
      holds_of_mem_held (r := { r with pending := r.pending.erase draft.nonce }) listed first
    rw [discard, find?_releaseTokens holds]

end Registry

namespace Lobby

variable {l : Lobby} {e : Address}

/-! ## Requests -/

/-- The token of a hello from the endpoint that is not stale. -/
def heard? (l : Lobby) (e : Address) : Request → Option OrderNumber
  | .hello endpoint token _ _ =>
    if endpoint = e ∧ l.registry.isStale e token = false then some token else none
  | .close .. | .expire .. => none

/-- The tokens of the hellos from the endpoint that were not stale, in their order. -/
def heard (e : Address) : Lobby → List Request → List OrderNumber
  | _, [] => []
  | l, request :: rest => (l.heard? e request).toList ++ heard e (l.answer request) rest

/-- The request closes a connection that has the endpoint. -/
def closes (l : Lobby) (e : Address) : Request → Bool
  | .close id _ => (l.registry.connection? id).any (·.hasEndpoint e)
  | .hello .. | .expire .. => false

/-- After each of the requests the endpoint is held, and none of them closes a connection that has
it. -/
def HeldThroughout (e : Address) : Lobby → List Request → Prop
  | _, [] => True
  | l, request :: rest =>
    l.closes e request = false ∧ e ∈ (l.answer request).registry.held ∧
      HeldThroughout e (l.answer request) rest

instance decidableHeldThroughout (e : Address) : (l : Lobby) → (requests : List Request) →
    Decidable (HeldThroughout e l requests)
  | _, [] => inferInstanceAs (Decidable True)
  | l, request :: rest =>
    have := decidableHeldThroughout e (l.answer request) rest
    inferInstanceAs (Decidable (_ ∧ _ ∧ _))

theorem foreign_of_not_closes {id : ConnectionId} {reason : DisconnectReason}
    (apart : l.closes e (.close id reason) = false) :
    ∀ c, l.registry.connection? id = some c → e ∉ c.endpoints := by
  intro c live has
  simp [closes, live, Connection.hasEndpoint, has] at apart

/-- A request leaves the token of an endpoint that is held alone, unless it is a newer hello from
there. -/
theorem find?_answer (listed : l.registry.Listed e) {request : Request}
    (apart : l.closes e request = false) (held : e ∈ (l.answer request).registry.held) :
    (l.answer request).registry.tokens.find? e =
      (l.heard? e request).or (l.registry.tokens.find? e) ∧
    (l.answer request).registry.Listed e := by
  cases request with
  | hello endpoint token hello now =>
    have alike := (l.register_alike endpoint token hello now).2
    have before := l.registry.find?_register listed (alike.symm.held held)
    constructor
    · have same : (l.answer (.hello endpoint token hello now)).registry.tokens =
          (l.registry.register endpoint token hello now).2.tokens := by
        have rest := alike.rest
        rw [answer, rest]
      rw [same, before, heard?]
      split <;> rfl
    · exact alike.listed (listed.register endpoint token hello now)
  | close id reason =>
    rw [answer, close_registry]
    obtain ⟨still, same⟩ := listed.remove (foreign_of_not_closes apart)
    exact ⟨same, still⟩
  | expire now timeout =>
    refine ⟨Registry.find?_foldl_discard listed held, ?_⟩
    obtain ⟨pending, tokens, result, _⟩ := l.registry.expirePending_eq now timeout
    have same : (l.answer (.expire now timeout)).registry = { l.registry with pending, tokens } :=
      result
    rw [same]
    exact listed

theorem mem_held_of_answer {request : Request} (held : e ∈ (l.answer request).registry.held) :
    e ∈ l.registry.held ∨ (l.heard? e request).isSome = true := by
  cases request with
  | hello endpoint token hello now =>
    have before := (l.register_alike endpoint token hello now).2.symm.held held
    by_cases stale : l.registry.isStale endpoint token = true
    · left
      rwa [Registry.register, if_pos stale] at before
    · apply (Registry.mem_held_of_register before).imp_right
      rintro rfl
      simp [heard?, stale]
  | close id reason =>
    rw [answer, close_registry] at held
    exact .inl (Registry.mem_held_of_remove held)
  | expire now timeout => exact .inl (Registry.mem_held_of_foldl_discard held)

/-! ## Runs -/

theorem HeldThroughout.before {done rest : List Request} (h : HeldThroughout e l (done ++ rest)) :
    HeldThroughout e l done := by
  induction done generalizing l with
  | nil => trivial
  | cons request done ih =>
    obtain ⟨apart, held, later⟩ := h
    exact ⟨apart, held, ih later⟩

/-- A hello that is not stale has a token that is strictly after the last one. -/
theorem after_of_heard? {request : Request} {t t₀ : OrderNumber} (new : l.heard? e request = some t)
    (old : l.registry.tokens.find? e = some t₀) : t.after t₀ = true := by
  unfold heard? at new
  split at new
  case h_1 =>
    split at new
    case isTrue newer =>
      cases new
      simpa [Registry.isStale, old] using newer.2
    case isFalse => cases new
  all_goals cases new

/-- The token is that of the last hello, and the tokens come strictly one after the other. -/
theorem find?_after (listed : l.registry.Listed e) {requests : List Request}
    (h : HeldThroughout e l requests) :
    (l.after requests).registry.tokens.find? e =
      (heard e l requests).getLast?.or (l.registry.tokens.find? e) ∧
    ((l.registry.tokens.find? e).toList ++ heard e l requests).IsChain fun a b =>
      b.after a = true := by
  induction requests generalizing l with
  | nil => cases h' : l.registry.tokens.find? e <;> simp [heard, after, h']
  | cons request rest ih =>
    obtain ⟨apart, held, later⟩ := h
    obtain ⟨token, still⟩ := find?_answer listed apart held
    obtain ⟨last, chain⟩ := ih still later
    rw [token] at last chain
    have step : (l.after (request :: rest)).registry = ((l.answer request).after rest).registry :=
      rfl
    cases new : l.heard? e request with
    | none =>
      simp only [new, Option.none_or] at last chain
      rw [step, last, heard, new]
      exact ⟨rfl, chain⟩
    | some t =>
      simp only [new, Option.some_or, Option.toList_some, List.singleton_append] at last chain
      rw [step, last, heard, new, Option.toList_some, List.singleton_append, List.getLast?_cons]
      constructor
      · cases (heard e (l.answer request) rest).getLast? <;> rfl
      · cases old : l.registry.tokens.find? e with
        | none => exact chain
        | some t₀ => exact .cons_cons (after_of_heard? new old) chain

/-! ## Replays -/

/-- Numbers that come strictly one after the other and can be told apart: none is after the last. -/
theorem not_after_getLast {numbers : List OrderNumber} {positions : List Nat}
    (chain : numbers.IsChain fun a b => b.after a = true) (same : numbers = positions.map numberAt)
    (window : Windowed positions) {t last : OrderNumber} (mem : t ∈ numbers)
    (final : numbers.getLast? = some last) :
    t.after last = false := by
  subst same
  have near {p q : Nat} (hp : p ∈ positions) (hq : q ∈ positions) :=
    after_numberAt (near_of_windowed window hp hq)
  have rising : positions.Pairwise (· < ·) := by
    apply List.isChain_iff_pairwise.1
    apply List.IsChain.imp_of_mem_imp _ ((List.isChain_map numberAt).1 chain)
    intro p q hp hq after
    simpa [near hq hp] using after
  obtain ⟨p, hp, rfl⟩ := List.mem_map.1 mem
  rw [List.getLast?_map] at final
  obtain ⟨q, hq, rfl⟩ := Option.map_eq_some_iff.1 final
  obtain ⟨earlier, parts⟩ := List.getLast?_eq_some_iff.1 hq
  rw [near hp (List.mem_of_getLast? hq), decide_eq_false_iff_not, Nat.not_lt]
  rw [parts, List.pairwise_append] at rising
  rw [parts] at hp
  rcases List.mem_append.1 hp with before | own
  · exact Nat.le_of_lt (rising.2.2 p before q (List.mem_singleton_self q))
  · exact Nat.le_of_eq (List.mem_singleton.1 own)

/-- A hello that is stale changes nothing. -/
theorem register_of_isStale {endpoint : Address} {token : OrderNumber}
    (old : l.registry.isStale endpoint token = true) (hello : Hello) (now : Instant) :
    l.register endpoint token hello now = (.ok .stale, l) := by
  simp [register, Registry.register, old]

/-- Since a request that made an endpoint held, as long as it is held and no connection that has it
is closed: the endpoint has a token, which is that of the last hello from there that was not stale;
the tokens of these come strictly one after the other; and if they can be told apart on the circle,
each of these hellos is stale when it arrives again and changes nothing. -/
theorem replayed_stale (game : String) (version : UInt32) (channels maxClients : Nat)
    (watchers : List Watcher) (before requests : List Request) (e : Address)
    (free : e ∉ ((opened game version channels maxClients watchers).after before).registry.held)
    (held : HeldThroughout e ((opened game version channels maxClients watchers).after before)
      requests) :
    let l := (opened game version channels maxClients watchers).after before
    (∀ done, done <+: requests → done ≠ [] →
      ∃ t, (l.after done).registry.tokens.find? e = some t ∧ (l.heard e done).getLast? = some t) ∧
    ((l.heard e requests).IsChain fun a b => b.after a = true) ∧
    ∀ positions, l.heard e requests = positions.map numberAt → Windowed positions →
      ∀ t ∈ l.heard e requests,
      ∀ hello now, (l.after requests).register e t hello now = (.ok .stale, l.after requests) := by
  intro l
  have listed := Registry.listed_of_not_held free
  have token : ∀ done, done <+: requests → done ≠ [] →
      ∃ t, (l.after done).registry.tokens.find? e = some t ∧
      (l.heard e done).getLast? = some t := by
    rintro done ⟨rest, rfl⟩ some
    obtain ⟨last, _⟩ := find?_after listed held.before
    cases done with
    | nil => exact absurd rfl some
    | cons request done =>
      -- The first request is the hello that makes the endpoint held.
      obtain ⟨t, new⟩ :=
        Option.isSome_iff_exists.1 ((mem_held_of_answer held.2.1).resolve_left free)
      have first : l.heard e (request :: done) = t :: heard e (l.answer request) done := by
        rw [heard, new]
        rfl
      rw [last, first, List.getLast?_cons]
      exact ⟨_, rfl, rfl⟩
  have chain := (find?_after listed held).2.right_of_append
  refine ⟨token, chain, fun positions same window t mem hello now => ?_⟩
  apply register_of_isStale
  have some : requests ≠ [] := by
    rintro rfl
    cases mem
  obtain ⟨last, stored, final⟩ := token requests List.prefix_rfl some
  simpa [Registry.isStale, stored] using not_after_getLast chain same window mem final

/-- An endpoint that was turned away once is held by two drafts, one of which is discarded
meanwhile; its tokens run past zero, and its first hello arrives again. -/
theorem replayed_stale_past_zero :
    let at_ (port : UInt16) : Address := ⟨.v4 2130706433, port⟩
    let before : List Request := [.hello (at_ 5000) 9 ⟨1, 7, "courier", 1⟩ 0]
    let requests : List Request := [
      .hello (at_ 5000) 4294967290 ⟨1, 0, "courier", 1⟩ 0,
      .hello (at_ 5000) 3 ⟨2, 0, "courier", 1⟩ 0,
      .hello (at_ 5001) 0 ⟨1, 0, "courier", 1⟩ 0,
      .expire 5 100,
      .hello (at_ 5000) 2 ⟨2, 0, "courier", 1⟩ 6,
      .hello (at_ 5000) 5 ⟨2, 0, "courier", 1⟩ 7]
    let l := (opened "courier" 1 2 32 [.peers, .events]).after before
    at_ 5000 ∉ l.registry.held ∧ HeldThroughout (at_ 5000) l requests ∧
      l.heard (at_ 5000) requests = [4294967290, 4294967299, 4294967301].map numberAt ∧
      Windowed [4294967290, 4294967299, 4294967301] ∧
      (l.after requests).register (at_ 5000) 4294967290 ⟨1, 0, "courier", 1⟩ 8 =
        (.ok .stale, l.after requests) := by
  intro at_ before requests l
  have free : at_ 5000 ∉ l.registry.held := by decide +kernel
  have held : HeldThroughout (at_ 5000) l requests := by decide +kernel
  have heard : l.heard (at_ 5000) requests = [4294967290, 4294967299, 4294967301].map numberAt := by
    decide +kernel
  have window : Windowed [4294967290, 4294967299, 4294967301] := ⟨4294967290, by decide⟩
  obtain ⟨_, _, again⟩ :=
    replayed_stale "courier" 1 2 32 [.peers, .events] before requests (at_ 5000) free held
  exact ⟨free, held, heard, window, again _ heard window _ (by decide +kernel) _ _⟩

/-- Two ways for a hello to be taken up again while its endpoint is held.  A connection is closed
that shares the endpoint with a draft, and takes the token along.  Or two later hellos bring the
token so far round the circle that the first one is after the last. -/
theorem replayed_pending :
    let at_ (port : UInt16) : Address := ⟨.v4 2130706433, port⟩
    let requests : List Request := [
      .hello (at_ 5000) 0 ⟨1, 0, "courier", 1⟩ 0,
      .hello (at_ 5000) 1 ⟨2, 0, "courier", 1⟩ 0,
      .hello (at_ 5001) 0 ⟨1, 1, "courier", 1⟩ 0,
      .close 1 .graceful]
    let around : List Request := [
      .hello (at_ 5000) 0 ⟨7, 0, "courier", 1⟩ 0,
      .hello (at_ 5000) 2147483647 ⟨7, 0, "courier", 1⟩ 0,
      .hello (at_ 5000) 4294967294 ⟨7, 0, "courier", 1⟩ 0]
    let l := opened "courier" 1 2 32 [.peers, .events]
    (∀ n ∈ [1, 2, 3, 4], at_ 5000 ∈ (l.after (requests.take n)).registry.held) ∧
      (l.after requests).registry.tokens.find? (at_ 5000) = none ∧
      ((l.after requests).register (at_ 5000) 0 ⟨1, 0, "courier", 1⟩ 0).1 = .ok .pending ∧
      HeldThroughout (at_ 5000) l around ∧
      ((l.after around).register (at_ 5000) 0 ⟨7, 0, "courier", 1⟩ 0).1 = .ok .pending := by
  decide +kernel

end Lobby
end DatagramSession
