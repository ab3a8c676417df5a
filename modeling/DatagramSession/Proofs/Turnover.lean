import DatagramSession.Proofs.Isolation
/-!
# Ids in turn

Ids are handed out in turn, round after round: after the last of them the first comes again, whoever
has it (`Lobby.nextId_after`).  So a new connection takes the place of a live one in one case only:
when the connection that was opened a whole round before has not been closed since
(`Lobby.replaces_iff_unclosed`).  That case does occur (`Lobby.first_connection_replaced`).
-/
namespace DatagramSession

namespace Table

variable {κ ν : Type} [DecidableEq κ]

theorem erase_of_absent {t : Table κ ν} {key : κ} (absent : t.find? key = none) :
    t.erase key = t := by
  have same := t.set_find? key
  rwa [absent] at same

theorem erase_insert (t : Table κ ν) (key : κ) (value : ν) :
    (t.insert key value).erase key = t.erase key := by
  have entries (l : List (κ × ν)) : (insertEntry key value l).filter (fun entry => entry.1 ≠ key) =
      l.filter fun entry => entry.1 ≠ key := by
    induction l with
    | nil => simp [insertEntry]
    | cons entry rest ih =>
      by_cases same : entry.1 = key
      · simp [insertEntry, same]
      · simpa [insertEntry, same] using ih
  ext1
  exact entries t.entries

theorem erase_insert_of_absent {t : Table κ ν} {key : κ} (absent : t.find? key = none) (value : ν) :
    (t.insert key value).erase key = t := by
  rw [erase_insert, erase_of_absent absent]

end Table

namespace Registry

/-- How many ids there are in a round; zero is none. -/
def idCount : Nat := UInt32.size - 1

/-- The id that comes after another one. -/
def following (id : ConnectionId) : ConnectionId :=
  if id + 1 = 0 then 1 else id + 1

theorem toNat_following {id : ConnectionId} {n : Nat} (turn : id.toNat = n % idCount + 1) :
    (following id).toNat = (n + 1) % idCount + 1 := by
  have moved : (id + 1).toNat = (id.toNat + 1) % 4294967296 := UInt32.toNat_add id 1
  have wraps : id + 1 = 0 ↔ (id + 1).toNat = 0 := UInt32.toNat_inj.symm
  simp only [idCount, UInt32.size, following] at turn ⊢
  split
  case isTrue wrapped =>
    have := wraps.1 wrapped
    simp only [UInt32.toNat_one]
    omega
  case isFalse counted =>
    have := mt wraps.2 counted
    omega

section
variable {r r' : Registry} {id? : Option ConnectionId}

/-- A new connection takes the next id and moves it on. -/
theorem Effect.nextId (effect : Effect r id? r') :
    (id? = none ∧ r'.nextId = r.nextId) ∨
    (id? = some r.nextId ∧ r'.nextId = following r.nextId) := by
  cases effect with
  | kept => exact .inl ⟨rfl, rfl⟩
  | closed id => exact .inl ⟨rfl, r.nextId_remove id⟩
  | enrolled r' endpoint hello now bound pending tokens address others drafts free new binds
      complete room alike =>
    refine .inr ⟨rfl, ?_⟩
    rw [alike.rest]
    rfl

/-- The new connection is live. -/
theorem Effect.enrols_live {id : ConnectionId} (effect : Effect r (some id) r') :
    (r'.connection? id).isSome = true := by
  cases effect with
  | enrolled r' endpoint hello now bound pending tokens address others drafts free new binds
      complete room alike =>
    have same := alike.identities r.nextId
    rw [connection?_enrol, if_pos rfl] at same
    rw [← Option.isSome_map (f := Connection.identity), same]
    rfl

end

/-! ## Strangers -/

/-- Nothing is known of a client. -/
structure Strange (r : Registry) (endpoint : Address) (nonce : Nonce) : Prop where
  token : r.tokens.find? endpoint = none
  free : r.byEndpoint.find? endpoint = none
  new : r.byNonce.find? nonce = none
  draft : r.pending.find? nonce = none

section
variable {r : Registry} {endpoint : Address} {hello : Hello}

/-- With one channel the first hello of a client completes its connection. -/
theorem register_of_strange (strange : r.Strange endpoint hello.nonce) (single : r.channels = 1)
    (matching : hello.game = r.game ∧ hello.version = r.version ∧ hello.channel = 0)
    (room : r.connections.size < r.maxClients) (token : OrderNumber) (now : Instant) :
    r.register endpoint token hello now =
      ((r.note endpoint token).enrol hello.nonce endpoint [] now).map .ok id := by
  obtain ⟨game, version, channel⟩ := matching
  have newer : r.isStale endpoint token = false := by simp [isStale, strange.token]
  have nobody : (r.note endpoint token).connectionAt? endpoint = none := by
    simp [connectionAt?, note, strange.free]
  have unheard : (r.note endpoint token).connectionOf? hello.nonce = none := by
    simp [connectionOf?, note, strange.new]
  have binds : (Draft.empty hello.nonce r.channels now).bind hello.channel endpoint =
      .ok ⟨hello.nonce, [some endpoint], now⟩ := by simp [Draft.bind, Draft.empty, single, channel]
  have advances : (r.note endpoint token).advance ⟨hello.nonce, [some endpoint], now⟩ hello now =
      (r.note endpoint token).enrol hello.nonce endpoint [] now := by
    simp [advance, note, game, version, Draft.complete?, Draft.isComplete, Draft.endpoints,
      Nat.not_le.2 room]
  have bound : (r.note endpoint token).bind endpoint hello now =
      ((r.note endpoint token).enrol hello.nonce endpoint [] now).map .ok id := by
    have found : (r.note endpoint token).pending.find? hello.nonce = none := strange.draft
    simp only [bind, found, Option.getD_none, Table.erase_of_absent found]
    rw [show (r.note endpoint token).channels = r.channels from rfl, binds]
    exact congrArg (Prod.map Except.ok id) advances
  unfold register
  simp only [newer, Bool.false_eq_true, if_false]
  split
  case h_1 c held => cases held.symm.trans nobody
  case h_2 =>
    split
    case h_1 c live => cases live.symm.trans unheard
    case h_2 => exact bound

/-- A client that comes and goes leaves nothing behind but the next id. -/
theorem remove_enrol (strange : r.Strange endpoint hello.nonce)
    (fresh : r.connection? r.nextId = none) (token : OrderNumber) (now : Instant)
    {f : Connection → Connection} (same : ∀ c, (f c).identity = c.identity) :
    ((((r.note endpoint token).enrol hello.nonce endpoint [] now).2.modify r.nextId f).remove
      r.nextId).2 =
      { r with nextId := following r.nextId } := by
  let c : Connection := .fresh r.nextId hello.nonce endpoint [] now
  have identity : (f c).identity = (r.nextId, hello.nonce, [endpoint]) := same c
  have endpoints : (f c).endpoints = [endpoint] := congrArg (·.2.2) identity
  have nonce : (f c).nonce = hello.nonce := congrArg (·.2.1) identity
  have entered : (r.connections.insert r.nextId c).modify r.nextId f =
      r.connections.insert r.nextId (f c) := by
    rw [Table.modify_eq_insert (Table.find?_insert _ _ _ _ |>.trans (if_pos rfl)),
      Table.insert_insert]
  have live : (((r.note endpoint token).enrol
      hello.nonce endpoint [] now).2.modify r.nextId f).connection? r.nextId = some (f c) := by
    show Table.find? (Table.modify (r.connections.insert r.nextId c) r.nextId f) r.nextId =
      some (f c)
    rw [entered, Table.find?_insert, if_pos rfl]
  have absent : r.connections.find? r.nextId = none := fresh
  simp only [remove, live, endpoints, nonce]
  change ({ r with
    connections := ((r.connections.insert r.nextId c).modify r.nextId f).erase r.nextId
    byEndpoint := (r.byEndpoint.insert endpoint r.nextId).erase endpoint
    byNonce := (r.byNonce.insert hello.nonce r.nextId).erase hello.nonce
    tokens := (r.tokens.insert endpoint token).erase endpoint
    nextId := following r.nextId } : Registry) = _
  rw [entered, Table.erase_insert_of_absent absent, Table.erase_insert_of_absent strange.free,
    Table.erase_insert_of_absent strange.new, Table.erase_insert_of_absent strange.token]

end

end Registry

namespace Lobby

open Registry (idCount following)

/-- The connection that a request closes, if it is live. -/
def Request.closes? : Request → Option ConnectionId
  | .close id _ => some id
  | .hello .. | .expire .. => none

section
variable {l : Lobby} {requests : List Request} {request : Request} {id k : ConnectionId} {n : Nat}

/-- A request concerns the connections that it opens or closes. -/
theorem connection?_answer (apart : l.enrols? request ≠ some k) (stays : request.closes? ≠ some k) :
    (l.answer request).registry.connection? k = l.registry.connection? k := by
  cases request with
  | hello endpoint token hello now =>
    refine (l.untouched_register endpoint token hello now fun id completed => ?_).connection
    rintro rfl
    exact apart (by simp only [enrols?, completed, completedId?])
  | close id reason =>
    rw [answer, close_registry, Registry.connection?_remove, if_neg]
    rintro rfl
    exact stays rfl
  | expire now timeout =>
    obtain ⟨pending, tokens, same, _⟩ := l.registry.expirePending_eq now timeout
    have result : (l.answer (.expire now timeout)).registry = { l.registry with pending, tokens } :=
      same
    rw [result]
    rfl

theorem connection?_answer_of_closes (closes : request.closes? = some k) :
    (l.answer request).registry.connection? k = none := by
  cases request with
  | close id reason =>
    cases closes
    rw [answer, close_registry, Registry.connection?_remove, if_pos rfl]
  | hello | expire => cases closes

theorem isSome_answer (live : (l.registry.connection? k).isSome = true)
    (stays : request.closes? ≠ some k) :
    ((l.answer request).registry.connection? k).isSome = true := by
  by_cases opens : l.enrols? request = some k
  · exact (opens ▸ l.effect_answer request).enrols_live
  · rw [connection?_answer opens stays]
    exact live

theorem nextId_after (first : l.registry.nextId = 1) (requests : List Request) :
    (l.after requests).registry.nextId.toNat = l.enrolled requests % idCount + 1 := by
  induction requests using List.reverseRecOn with
  | nil =>
    have start : (l.after []).registry.nextId = 1 := first
    rw [start]
    rfl
  | append_singleton requests request ih =>
    rw [after_append_singleton, enrolled_append]
    rcases ((l.after requests).effect_answer request).nextId with ⟨none, same⟩ | ⟨some, moved⟩
    · rw [same, ih, enrolled, none]
      rfl
    · rw [moved, Registry.toNat_following ih, enrolled, some]
      rfl

/-- Each new connection has the next id in turn. -/
theorem toNat_enrols? (first : l.registry.nextId = 1)
    (opens : (l.after requests).enrols? request = some id) :
    id.toNat = l.enrolled requests % idCount + 1 := by
  rcases ((l.after requests).effect_answer request).nextId with ⟨none, _⟩ | ⟨some, _⟩
  · cases opens.symm.trans none
  · cases opens.symm.trans some
    exact nextId_after first requests

/-- In a run a connection was opened under an id after so many others, and has not been closed
since. -/
def Unclosed (l : Lobby) (requests : List Request) (id : ConnectionId) (n : Nat) : Prop :=
  ∃ done opening rest,
    requests = done ++ opening :: rest ∧ (l.after done).enrols? opening = some id ∧
    l.enrolled done = n ∧ ∀ request ∈ rest, request.closes? ≠ some id

theorem Unclosed.concat (h : l.Unclosed requests id n) (stays : request.closes? ≠ some id) :
    l.Unclosed (requests ++ [request]) id n := by
  obtain ⟨done, opening, rest, rfl, opens, count, kept⟩ := h
  refine ⟨done, opening, rest ++ [request], by simp, opens, count, fun request' mem => ?_⟩
  rcases List.mem_append.1 mem with old | new
  · exact kept request' old
  · rw [List.mem_singleton.1 new]
    exact stays

theorem Unclosed.live (h : l.Unclosed requests id n) :
    ((l.after requests).registry.connection? id).isSome = true := by
  obtain ⟨done, opening, rest, rfl, opens, _, kept⟩ := h
  have opened := (opens ▸ (l.after done).effect_answer opening).enrols_live
  have split : l.after (done ++ opening :: rest) =
      rest.foldl answer ((l.after done).answer opening) := by simp [after]
  rw [split]
  exact List.foldlRecOn rest _
    (motive := fun l' : Lobby => (l'.registry.connection? id).isSome = true) opened fun l' live
    request mem => isSome_answer live (kept request mem)

theorem Unclosed.toNat (h : l.Unclosed requests id n) (first : l.registry.nextId = 1) :
    id.toNat = n % idCount + 1 := by
  obtain ⟨done, opening, rest, rfl, opens, rfl, _⟩ := h
  exact toNat_enrols? first opens

/-- Whoever is live was opened at most one round ago. -/
theorem unclosed_of_live (first : l.registry.nextId = 1)
    (empty : ∀ k, l.registry.connection? k = none)
    (live : ((l.after requests).registry.connection? k).isSome = true) :
    ∃ n, l.Unclosed requests k n ∧ n < l.enrolled requests ∧ l.enrolled requests ≤ n + idCount := by
  induction requests using List.reverseRecOn with
  | nil =>
    have nobody : (l.after []).registry.connection? k = none := empty k
    rw [nobody] at live
    cases live
  | append_singleton requests request ih =>
    rw [after_append_singleton] at live
    rw [enrolled_append]
    have stays : request.closes? ≠ some k := by
      intro closes
      rw [connection?_answer_of_closes closes] at live
      cases live
    by_cases opens : (l.after requests).enrols? request = some k
    · refine ⟨l.enrolled requests, ⟨requests, request, [], rfl, opens, rfl, List.forall_mem_nil _⟩,
        ?_⟩
      simp only [enrolled, opens, Option.toList_some, List.length_singleton, idCount, UInt32.size]
      omega
    · rw [connection?_answer opens stays] at live
      obtain ⟨n, unclosed, earlier, recent⟩ := ih live
      refine ⟨n, unclosed.concat stays, Nat.lt_of_lt_of_le earlier (Nat.le_add_right _ _), ?_⟩
      cases other : (l.after requests).enrols? request with
      | none => simpa [enrolled, other] using recent
      | some id =>
        -- a whole round ago it would have had the id that is handed out now
        have differs : l.enrolled requests ≠ n + idCount := by
          intro whole
          have turn := toNat_enrols? first other
          rw [whole, Nat.add_mod_right, ← unclosed.toNat first] at turn
          exact opens (other.trans (congrArg some (UInt32.toNat_inj.1 turn)))
        simp only [enrolled, other, Option.toList_some, List.length_singleton]
        omega

end

/-- Ids come in turn, so that a new connection has the id of the one that was opened a whole round
before.  Every other connection is kept as it is.  The live connections are those before and the new
one, and the new one is none of those before, unless it takes the place of the one a whole round
before, which happens exactly if that has not been closed. -/
theorem replaces_iff_unclosed (game : String) (version : UInt32) (channels maxClients : Nat)
    (watchers : List Watcher) (requests : List Request) (request : Request) {id : ConnectionId}
    (opens : ((opened game version channels maxClients watchers).after requests).enrols? request =
      some id) :
    let l := opened game version channels maxClients watchers
    let before := (l.after requests).registry
    let after := ((l.after requests).answer request).registry
    id.toNat = l.enrolled requests % idCount + 1 ∧
    (∀ k, k ≠ id → after.connection? k = before.connection? k) ∧
    after.ids.Perm (before.ids.insert id) ∧
    (id ∈ before.ids ↔ ∃ n, l.Unclosed requests id n ∧ n + idCount = l.enrolled requests) := by
  intro l before after
  have live {r : Registry} {k : ConnectionId} : k ∈ r.ids ↔ (r.connection? k).isSome = true :=
    Table.mem_keys_iff
  have turn : id.toNat = l.enrolled requests % idCount + 1 := toNat_enrols? rfl opens
  have stays (k : ConnectionId) : request.closes? ≠ some k := by
    cases request with
    | hello => exact nofun
    | close | expire => cases opens
  have others (k : ConnectionId) (other : k ≠ id) : after.connection? k = before.connection? k := by
    refine connection?_answer (fun own => other ?_) (stays k)
    exact Option.some.inj (own.symm.trans opens)
  refine ⟨turn, others, ?_, ?_⟩
  · have once : (before.ids.insert id).Nodup := List.Nodup.insert before.connections.unique
    refine (List.perm_ext_iff_of_nodup after.connections.unique once).2 fun k => ?_
    change k ∈ after.ids ↔ k ∈ before.ids.insert id
    rw [List.mem_insert_iff, live, live]
    by_cases own : k = id
    · subst own
      simpa using (opens ▸ (l.after requests).effect_answer request).enrols_live
    · simp [own, others k own]
  · rw [live]
    constructor
    · intro present
      obtain ⟨n, unclosed, earlier, recent⟩ := unclosed_of_live (l := l) rfl (fun _ => rfl) present
      refine ⟨n, unclosed, ?_⟩
      have same := (unclosed.toNat rfl).symm.trans turn
      simp only [idCount, UInt32.size] at same recent ⊢
      omega
    · rintro ⟨n, unclosed, _⟩
      exact unclosed.live

/-- The second of two clients. -/
theorem replaces_iff_unclosed_second :
    let l := opened "courier" 1 1 32 [.peers, .events]
    let requests : List Request := [.hello ⟨.v4 2130706433, 5000⟩ 0 ⟨1, 0, "courier", 1⟩ 0]
    let request : Request := .hello ⟨.v4 2130706433, 5001⟩ 0 ⟨2, 0, "courier", 1⟩ 0
    (l.after requests).enrols? request = some 2 ∧ (l.after requests).registry.ids = [1] ∧
      ((l.after requests).answer request).registry.ids.Perm [2, 1] := by
  intro l requests request
  have opens : (l.after requests).enrols? request = some 2 := by decide +kernel
  have ids : (l.after requests).registry.ids = [1] := by decide +kernel
  have live :=
    (replaces_iff_unclosed "courier" 1 1 32 [.peers, .events] requests request opens).2.2.1
  rw [ids] at live
  exact ⟨opens, ids, live⟩

/-! ## A visitor that comes again and again -/

/-- A visit: a client comes and is closed at once. -/
def visit (endpoint : Address) (hello : Hello) (id : ConnectionId) : List Request :=
  [.hello endpoint 0 hello 0, .close id .graceful]

section
variable {l : Lobby} (endpoint : Address) (hello : Hello)

theorem register_of_strange (watchers : l.watchers = [.peers, .events])
    (strange : l.registry.Strange endpoint hello.nonce) (single : l.registry.channels = 1)
    (matching : hello.game = l.registry.game ∧ hello.version = l.registry.version ∧
      hello.channel = 0)
    (room : l.registry.connections.size < l.registry.maxClients) (token : OrderNumber)
    (now : Instant) :
    (l.register endpoint token hello now).1 = .ok (.completed l.registry.nextId) ∧
    (l.register endpoint token hello now).2.watchers = l.watchers ∧
    (l.register endpoint token hello now).2.registry =
      ((l.registry.note endpoint token).enrol hello.nonce endpoint [] now).2.welcome
        l.registry.nextId := by
  have answered := Registry.register_of_strange strange single matching room token now
  let c : Connection := .fresh l.registry.nextId hello.nonce endpoint [] now
  let entered : Lobby :=
    { l with registry := ((l.registry.note endpoint token).enrol hello.nonce endpoint [] now).2 }
  have live : entered.registry.connection? l.registry.nextId = some c :=
    (Registry.connection?_enrol _ _ _ _ _ _).trans (if_pos rfl)
  have registered : l.register endpoint token hello now =
      (.ok (.completed l.registry.nextId), entered.introduce l.registry.nextId now) := by
    unfold register
    rw [answered]
    rfl
  have introduced : entered.introduce l.registry.nextId now =
      { entered.announce c now with
        registry := (entered.announce c now).registry.welcome l.registry.nextId } := by
    simp only [introduce, live]
  have announced := announce_eq (l := entered) watchers c now
  rw [registered, introduced, announced]
  exact ⟨rfl, rfl, rfl⟩

/-- A visit leaves nothing behind in the registry but the next id. -/
theorem after_visit (watchers : l.watchers = [.peers, .events])
    (strange : l.registry.Strange endpoint hello.nonce) (single : l.registry.channels = 1)
    (matching : hello.game = l.registry.game ∧ hello.version = l.registry.version ∧
      hello.channel = 0)
    (room : l.registry.connections.size < l.registry.maxClients)
    (fresh : l.registry.connection? l.registry.nextId = none) :
    (l.after (visit endpoint hello l.registry.nextId)).watchers = [.peers, .events] ∧
    (l.after (visit endpoint hello l.registry.nextId)).registry =
      { l.registry with nextId := following l.registry.nextId } := by
  obtain ⟨_, same, registry⟩ :=
    register_of_strange endpoint hello watchers strange single matching room 0 0
  constructor
  · exact ((l.register endpoint 0 hello 0).2.watchers_close _ .graceful).trans (same.trans watchers)
  · show ((l.register endpoint 0 hello 0).2.close _ .graceful).2.registry = _
    rw [close_registry, registry]
    exact Registry.remove_enrol strange fresh 0 0 fun _ => rfl

end

section

/-- A client that stays. -/
def resident : Address × Hello := (⟨.v4 2130706433, 5000⟩, ⟨1, 0, "courier", 1⟩)

/-- A client that comes again and again. -/
def visitor : Address × Hello := (⟨.v4 2130706433, 5001⟩, ⟨2, 0, "courier", 1⟩)

/-- The resident registers; then the visitor comes so many times, each time under the next id. -/
def visits (n : Nat) : List Request :=
  .hello resident.1 0 resident.2 0 ::
    (List.range n).flatMap fun i => visit visitor.1 visitor.2 (UInt32.ofNat (i + 2))

/-- The registry with the resident, whatever the next id. -/
def occupied (nextId : ConnectionId) : Registry :=
  { ((opened "courier" 1 1 32 [.peers, .events]).after (visits 0)).registry with nextId }

theorem strange_occupied (nextId : ConnectionId) :
    (occupied nextId).Strange visitor.1 visitor.2.nonce :=
  ⟨rfl, rfl, rfl, rfl⟩

theorem room_occupied (nextId : ConnectionId) :
    (occupied nextId).connections.size < (occupied nextId).maxClients :=
  (by decide : 1 < 32)

theorem connection?_occupied (nextId : ConnectionId) {id : ConnectionId} (other : id ≠ 1) :
    (occupied nextId).connection? id = none := by
  have absent : id ∉ (occupied nextId).ids := by
    have ids : (occupied nextId).ids = [1] := rfl
    rw [ids, List.mem_singleton]
    exact other
  simpa [Registry.ids, Table.mem_keys_iff, Registry.connection?] using absent

theorem after_visits {n : Nat} (within : n < idCount) :
    ((opened "courier" 1 1 32 [.peers, .events]).after (visits n)).watchers = [.peers, .events] ∧
    ((opened "courier" 1 1 32 [.peers, .events]).after (visits n)).registry =
      occupied (following (UInt32.ofNat (n + 1))) := by
  induction n with
  | zero => exact ⟨rfl, rfl⟩
  | succ n ih =>
    obtain ⟨watchers, registry⟩ := ih (Nat.lt_of_succ_lt within)
    have small : n + 2 < UInt32.size := by
      simp only [idCount, UInt32.size] at within ⊢
      omega
    have counted : (UInt32.ofNat (n + 1) + 1).toNat = n + 2 := by
      rw [UInt32.toNat_add, UInt32.toNat_ofNat_of_lt' (Nat.lt_of_succ_lt small)]
      exact Nat.mod_eq_of_lt small
    have next : following (UInt32.ofNat (n + 1)) = UInt32.ofNat (n + 2) := by
      have above : UInt32.ofNat (n + 1) + 1 ≠ 0 := by
        intro wrapped
        rw [wrapped] at counted
        cases counted
      rw [following, if_neg above, ← UInt32.toNat_inj, counted, UInt32.toNat_ofNat_of_lt' small]
    have other : UInt32.ofNat (n + 2) ≠ 1 := by
      rw [Ne, ← UInt32.toNat_inj, UInt32.toNat_ofNat_of_lt' small]
      exact nofun
    have more : visits (n + 1) = visits n ++ visit visitor.1 visitor.2 (UInt32.ofNat (n + 2)) := by
      simp [visits, List.range_succ]
    have run : (opened "courier" 1 1 32 [.peers, .events]).after (visits (n + 1)) =
        ((opened "courier" 1 1 32 [.peers, .events]).after (visits n)).after
          (visit visitor.1 visitor.2 (UInt32.ofNat (n + 2))) := by
      rw [more]
      exact List.foldl_append
    rw [run]
    rw [next] at registry
    generalize (opened "courier" 1 1 32 [.peers, .events]).after (visits n) = l at watchers registry
    have left := after_visit visitor.1 visitor.2 watchers
      (registry ▸ strange_occupied _) (registry ▸ rfl) (registry ▸ ⟨rfl, rfl, rfl⟩)
      (registry ▸ room_occupied _) (registry ▸ connection?_occupied _ other)
    rw [registry] at left
    exact left

/-- The visitor gets the next id, whoever has it. -/
theorem visit_occupied {l : Lobby} (watchers : l.watchers = [.peers, .events])
    {nextId : ConnectionId} (registry : l.registry = occupied nextId) :
    l.enrols? (.hello visitor.1 0 visitor.2 0) = some nextId ∧
    (l.answer (.hello visitor.1 0 visitor.2 0)).registry =
      (((occupied nextId).note visitor.1 0).enrol visitor.2.nonce visitor.1 [] 0).2.welcome
        nextId := by
  obtain ⟨completed, _, answered⟩ := register_of_strange visitor.1 visitor.2 watchers
    (registry ▸ strange_occupied _) (registry ▸ rfl) (registry ▸ ⟨rfl, rfl, rfl⟩)
    (registry ▸ room_occupied _) 0 0
  rw [registry] at completed answered
  exact ⟨congrArg completedId? completed, answered⟩

/-- After a whole round the visitor takes the place of the resident, who has been there all the
time: the connection under the first id is the visitor's then, even for the endpoint of the
resident, and that of the resident is gone. -/
theorem first_connection_replaced :
    let l := opened "courier" 1 1 32 [.peers, .events]
    let requests := visits (idCount - 1)
    let request : Request := .hello visitor.1 0 visitor.2 0
    let before := (l.after requests).registry
    let after := ((l.after requests).answer request).registry
    (l.after requests).enrols? request = some 1 ∧ before.ids = [1] ∧ after.ids = [1] ∧
      (before.connectionAt? resident.1).map Connection.identity =
        some (1, resident.2.nonce, [resident.1]) ∧
      (after.connectionAt? resident.1).map Connection.identity =
        some (1, visitor.2.nonce, [visitor.1]) := by
  intro l requests request before after
  obtain ⟨watchers, registry⟩ := after_visits (n := idCount - 1) (by decide)
  have first : following (UInt32.ofNat (idCount - 1 + 1)) = 1 := rfl
  rw [first] at registry
  obtain ⟨opens, replaced⟩ := visit_occupied watchers registry
  have old : before = occupied 1 := registry
  have new : after =
      (((occupied 1).note visitor.1 0).enrol visitor.2.nonce visitor.1 [] 0).2.welcome 1 := replaced
  rw [old, new]
  exact ⟨opens, rfl, rfl, rfl, rfl⟩

end

end Lobby

end DatagramSession
