import DatagramSession.Proofs.Hellos
/-!
# What a request to the lobby does

A run of the lobby is a list of requests: hellos, closes and expiries.  `answers_register` says once
all that a hello can do to the registry, and `register_alike` that the watchers add nothing to that
but notes on connections.  Ids are handed out in order (`Numbered`), so that a new connection never
takes the id of a live one.
-/
namespace DatagramSession

/-- Who a connection is, whatever is noted about it. -/
def Connection.identity (c : Connection) : ConnectionId × Nonce × List Address :=
  (c.id, c.nonce, c.endpoints)

namespace Draft

variable {d bound : Draft} {channel : UInt8} {endpoint : Address}

theorem bind_ok (h : d.bind channel endpoint = .ok bound) :
    bound.slots.length = d.slots.length ∧ endpoint ∈ bound.endpoints := by
  unfold bind at h
  split at h
  case h_1 => cases h
  case h_2 existing found =>
    split at h
    case isTrue same =>
      cases h
      exact ⟨rfl, List.mem_filterMap.2 ⟨some endpoint, List.mem_of_getElem? (same ▸ found), rfl⟩⟩
    case isFalse => cases h
  case h_3 found =>
    cases h
    refine ⟨List.length_set, List.mem_filterMap.2 ⟨some endpoint, ?_, rfl⟩⟩
    have inside := (List.getElem?_eq_some_iff.1 found).1
    exact List.mem_of_getElem? (i := channel.toNat) (by simp [inside])

theorem endpoints_of_complete? {address : Address} {others : List Address}
    (h : d.complete? = some (address, others)) : d.endpoints = address :: others := by
  unfold complete? at h
  split at h
  case h_1 first rest _ bound =>
    cases h
    exact bound
  case h_2 => cases h

theorem length_endpoints_le (d : Draft) : d.endpoints.length ≤ d.slots.length :=
  List.length_filterMap_le _ _

end Draft

namespace Registry

/-- Nothing differs but what is noted about connections. -/
structure Alike (r r' : Registry) : Prop where
  rest : r' = { r with connections := r'.connections }
  identities : ∀ id, (r'.connection? id).map Connection.identity = (r.connection? id).map
    Connection.identity

theorem alike_refl (r : Registry) : Alike r r :=
  ⟨rfl, fun _ => rfl⟩

theorem Alike.trans {r r' r'' : Registry} (first : Alike r r') (second : Alike r' r'') :
    Alike r r'' := by
  refine ⟨?_, fun id => (second.identities id).trans (first.identities id)⟩
  rw [second.rest, first.rest]

theorem alike_modify (r : Registry) (id : ConnectionId) {f : Connection → Connection}
    (kept : ∀ c, (f c).identity = c.identity) : Alike r (r.modify id f) := by
  refine ⟨rfl, fun key => ?_⟩
  simp only [connection?, modify, Table.find?_modify]
  by_cases same : id = key
  · cases r.connections.find? key <;> simp [same, kept]
  · simp [same]

/-- A connection that is live on one side is live on the other, with the same identity. -/
theorem Alike.live {r r' : Registry} (h : Alike r r') {id : ConnectionId} {c : Connection}
    (live : r'.connection? id = some c) :
    ∃ c₀, r.connection? id = some c₀ ∧ c₀.identity = c.identity := by
  have same := h.identities id
  rw [live] at same
  exact Option.map_eq_some_iff.1 same.symm

theorem Alike.symm {r r' : Registry} (h : Alike r r') : Alike r' r := by
  refine ⟨?_, fun id => (h.identities id).symm⟩
  rw [h.rest]

theorem releaseToken_eq (r : Registry) (endpoint : Address) :
    r.releaseToken endpoint = { r with tokens := (r.releaseToken endpoint).tokens } := by
  unfold releaseToken
  split <;> rfl

theorem releaseTokens_eq (r : Registry) (endpoints : List Address) :
    r.releaseTokens endpoints = { r with tokens := (r.releaseTokens endpoints).tokens } := by
  unfold releaseTokens
  induction endpoints generalizing r with
  | nil => rfl
  | cons endpoint rest ih =>
    rw [List.foldl_cons, ih, releaseToken_eq]

/-- All that a hello can do to a registry. -/
inductive Answers (r : Registry) (endpoint : Address) (hello : Hello) (now : Instant) :
    Except RegistrationError RegistrationOutcome × Registry → Prop where
  /-- No draft is touched. -/
  | apart (result : Except RegistrationError RegistrationOutcome)
      (tokens : Table Address OrderNumber) (other : ∀ id, result ≠ .ok (.completed id)) :
      Answers r endpoint hello now (result, { r with tokens })
  /-- The draft is discarded. -/
  | dropped (result : Except RegistrationError RegistrationOutcome)
      (tokens : Table Address OrderNumber) (other : ∀ id, result ≠ .ok (.completed id)) :
      Answers r endpoint hello now
        (result, { r with pending := r.pending.erase hello.nonce, tokens })
  /-- The draft waits for further hellos. -/
  | waits (bound : Draft) (tokens : Table Address OrderNumber)
      (binds : (r.draftFor hello now).bind hello.channel endpoint = .ok bound)
      (incomplete : bound.complete? = none) :
      Answers r endpoint hello now
        (.ok .pending, { r with
          pending := (r.pending.erase hello.nonce).insert hello.nonce bound, tokens })
  /-- The draft becomes a connection. -/
  | completes (bound : Draft) (tokens : Table Address OrderNumber) (address : Address)
      (others : List Address) (free : r.connectionAt? endpoint = none)
      (new : r.connectionOf? hello.nonce = none)
      (binds : (r.draftFor hello now).bind hello.channel endpoint = .ok bound)
      (complete : bound.complete? = some (address, others))
      (room : r.connections.size < r.maxClients) :
      Answers r endpoint hello now
        (({ r with pending := r.pending.erase hello.nonce, tokens }.enrol
          hello.nonce address others now).map .ok id)

theorem answers_register (r : Registry) (endpoint : Address) (token : OrderNumber) (hello : Hello)
    (now : Instant) :
    Answers r endpoint hello now (r.register endpoint token hello now) := by
  have exits := r.exits_register endpoint token hello now
  generalize r.register endpoint token hello now = outcome at exits
  cases exits with
  | stale | duplicate | inUse => exact .apart _ _ nofun
  | taken =>
    rw [releaseToken_eq]
    exact .apart _ _ nofun
  | violates | rejected =>
    rw [releaseTokens_eq]
    exact .dropped _ _ nofun
  | waits newer free new matching bound binds incomplete => exact .waits bound _ binds incomplete
  | completes newer free new matching bound binds address others complete room =>
    exact .completes bound _ address others free new binds complete room

theorem foldl_discard_eq (drafts : List Draft) (r : Registry) : ∃ pending tokens,
    drafts.foldl discard r = { r with pending, tokens } ∧
      ∀ nonce d, pending.find? nonce = some d → r.pending.find? nonce = some d := by
  induction drafts generalizing r with
  | nil => exact ⟨r.pending, r.tokens, rfl, fun _ _ held => held⟩
  | cons draft rest ih =>
    obtain ⟨pending, tokens, left, still⟩ := ih (r.discard draft)
    refine ⟨pending, tokens, ?_, fun nonce d held => ?_⟩
    · rw [List.foldl_cons, left, discard, releaseTokens_eq]
    · have before := still nonce d held
      rw [discard, releaseTokens_eq] at before
      exact Table.find?_of_find?_erase before

theorem expirePending_eq (r : Registry) (now : Instant) (timeout : Duration) :
    ∃ pending tokens, (r.expirePending now timeout).2 = { r with pending, tokens } ∧
      ∀ nonce d, pending.find? nonce = some d → r.pending.find? nonce = some d :=
  foldl_discard_eq _ r

/-- All that a request can do to drafts and live connections; a request that completes a draft gives
rise to one more connection. -/
inductive Effect (r : Registry) : Option ConnectionId → Registry → Prop where
  | kept (pending : Table Nonce Draft) (tokens : Table Address OrderNumber)
      (drafts : ∀ nonce d, pending.find? nonce = some d → r.pending.find? nonce = some d ∨
        ∃ endpoint hello now, (r.draftFor hello now).bind hello.channel endpoint = .ok d) :
      Effect r none { r with pending, tokens }
  | closed (id : ConnectionId) : Effect r none (r.remove id).2
  | enrolled (r' : Registry) (endpoint : Address) (hello : Hello) (now : Instant) (bound : Draft)
      (pending : Table Nonce Draft) (tokens : Table Address OrderNumber) (address : Address)
      (others : List Address) (drafts : ∀ nonce d, pending.find? nonce = some d →
        r.pending.find? nonce = some d)
      (free : r.connectionAt? endpoint = none) (new : r.connectionOf? hello.nonce = none)
      (binds : (r.draftFor hello now).bind hello.channel endpoint = .ok bound)
      (complete : bound.complete? = some (address, others))
      (room : r.connections.size < r.maxClients)
      (alike : Alike ({ r with pending, tokens }.enrol hello.nonce address others now).2 r') :
      Effect r (some r.nextId) r'

/-! ## Ids -/

/-- Ids have been handed out in order, `k` of them so far. -/
structure Numbered (r : Registry) (k : Nat) : Prop where
  next : r.nextId.toNat = k + 1
  live : ∀ id c, r.connection? id = some c → id.toNat ≤ k

section
variable {r r' : Registry} {k : Nat}

/-- The next id belongs to nobody. -/
theorem Numbered.fresh (h : r.Numbered k) : r.connection? r.nextId = none := by
  cases live : r.connection? r.nextId with
  | none => rfl
  | some c =>
    have := h.live _ c live
    have := h.next
    omega

theorem connection?_enrol (r : Registry) (nonce : Nonce) (address : Address) (others : List Address)
    (now : Instant) (id : ConnectionId) :
    (r.enrol nonce address others now).2.connection? id =
      if r.nextId = id then some (.fresh r.nextId nonce address others now) else r.connection? id :=
  Table.find?_insert _ _ _ _

theorem connection?_remove (r : Registry) (id key : ConnectionId) :
    (r.remove id).2.connection? key = if id = key then none else r.connection? key := by
  unfold remove
  split
  case h_1 absent =>
    split
    case isTrue same => exact same ▸ absent
    case isFalse => rfl
  case h_2 c live => exact Table.find?_erase _ _ _

theorem nextId_remove (r : Registry) (id : ConnectionId) : (r.remove id).2.nextId = r.nextId := by
  unfold remove
  split <;> rfl

theorem Alike.numbered (h : Alike r r') (numbered : r.Numbered k) : r'.Numbered k := by
  refine ⟨?_, fun id c live => ?_⟩
  · rw [h.rest]
    exact numbered.next
  · obtain ⟨c₀, before, _⟩ := h.live live
    exact numbered.live id c₀ before

theorem numbered_enrol (h : r.Numbered k) (few : k + 1 < UInt32.size - 1) (nonce : Nonce)
    (address : Address) (others : List Address) (now : Instant) :
    (r.enrol nonce address others now).2.Numbered (k + 1) := by
  have size : UInt32.size = 4294967296 := rfl
  have next : (r.nextId + 1).toNat = k + 2 := by
    rw [UInt32.toNat_add, h.next]
    exact Nat.mod_eq_of_lt (by simpa using by omega)
  have counted : r.nextId + 1 ≠ 0 := by
    intro wrapped
    rw [wrapped] at next
    simp at next
  refine ⟨?_, fun id c live => ?_⟩
  · simp only [enrol, counted, if_false]
    exact next
  · rw [connection?_enrol] at live
    split at live
    case isTrue same => exact same ▸ Nat.le_of_eq h.next
    case isFalse => exact Nat.le_succ_of_le (h.live id c live)

/-- Each connection that is completed takes the next number. -/
theorem Effect.numbered {id? : Option ConnectionId} (effect : Effect r id? r') (h : r.Numbered k)
    (few : k + id?.toList.length < UInt32.size - 1) : r'.Numbered (k + id?.toList.length) := by
  cases effect with
  | kept => exact ⟨h.next, h.live⟩
  | closed id =>
    refine ⟨?_, fun key c live => ?_⟩
    · rw [nextId_remove]
      exact h.next
    · rw [connection?_remove] at live
      split at live
      · cases live
      · exact h.live key c live
  | enrolled r' endpoint hello now bound pending tokens address others drafts free new binds
      complete room alike =>
    have before : Numbered { r with pending, tokens } k := ⟨h.next, h.live⟩
    exact alike.numbered (numbered_enrol before few hello.nonce address others now)

/-! ## Drafts -/

/-- Every draft has one slot for each channel. -/
structure Sized (r : Registry) : Prop where
  channels : 1 ≤ r.channels
  drafts : ∀ nonce d, r.pending.find? nonce = some d → d.slots.length = r.channels

theorem Sized.draftFor (h : r.Sized) (hello : Hello) (now : Instant) :
    (r.draftFor hello now).slots.length = r.channels := by
  unfold Registry.draftFor
  cases found : r.pending.find? hello.nonce with
  | none =>
    have := h.channels
    simp only [Option.getD_none, Draft.empty, List.length_replicate]
    omega
  | some d => exact h.drafts hello.nonce d found

theorem Effect.sized {id? : Option ConnectionId} (effect : Effect r id? r') (h : r.Sized) :
    r'.channels = r.channels ∧ r'.Sized := by
  cases effect with
  | kept pending tokens drafts =>
    refine ⟨rfl, h.channels, fun nonce d held => ?_⟩
    rcases drafts nonce d held with old | ⟨endpoint, hello, now, binds⟩
    · exact h.drafts nonce d old
    · rw [(Draft.bind_ok binds).1]
      exact h.draftFor hello now
  | closed id =>
    unfold remove
    split
    · exact ⟨rfl, h⟩
    · exact ⟨rfl, h.channels, h.drafts⟩
  | enrolled r' endpoint hello now bound pending tokens address others drafts free new binds
      complete room alike =>
    rw [alike.rest]
    exact ⟨rfl, h.channels, fun nonce d held => h.drafts nonce d (drafts nonce d held)⟩

end

end Registry

namespace Lobby

theorem announce_alike (l : Lobby) (c : Connection) (now : Instant) :
    Registry.Alike l.registry (l.announce c now).registry := by
  have told (l : Lobby) (watcher : Watcher) :
      Registry.Alike l.registry (l.announceTo c now watcher).registry := by
    cases watcher with
    | greeter => exact Registry.alike_modify _ _ fun _ => rfl
    | peers | events | record => exact Registry.alike_refl _
  unfold announce
  induction l.watchers generalizing l with
  | nil => exact Registry.alike_refl _
  | cons watcher rest ih => exact (told l watcher).trans (ih _)

theorem introduce_alike (l : Lobby) (id : ConnectionId) (now : Instant) :
    Registry.Alike l.registry (l.introduce id now).registry := by
  unfold introduce
  split
  · exact (l.announce_alike _ now).trans (Registry.alike_modify _ _ fun _ => rfl)
  · exact Registry.alike_refl _

/-- A lobby answers a hello as its registry does; the watchers change nothing but what is noted
about connections. -/
theorem register_alike (l : Lobby) (endpoint : Address) (token : OrderNumber) (hello : Hello)
    (now : Instant) :
    (l.register endpoint token hello now).1 = (l.registry.register endpoint token hello now).1 ∧
    Registry.Alike (l.registry.register endpoint token hello now).2
      (l.register endpoint token hello now).2.registry := by
  unfold register
  dsimp only
  split
  case h_1 id completed =>
    exact ⟨rfl, introduce_alike
      { l with registry := (l.registry.register endpoint token hello now).2 } id now⟩
  case h_2 => exact ⟨rfl, Registry.alike_refl _⟩

theorem register_registry_of_not_completed (l : Lobby) (endpoint : Address) (token : OrderNumber)
    (hello : Hello) (now : Instant)
    (other : ∀ id, (l.registry.register endpoint token hello now).1 ≠ .ok (.completed id)) :
    (l.register endpoint token hello now).2.registry =
      (l.registry.register endpoint token hello now).2 := by
  unfold register
  dsimp only
  split
  case h_1 id completed => exact absurd completed (other id)
  case h_2 => rfl

theorem close_registry (l : Lobby) (id : ConnectionId) (reason : DisconnectReason) :
    (l.close id reason).2.registry = (l.registry.remove id).2 := by
  have bidden (l : Lobby) (c : Connection) : (l.farewell c reason).registry = l.registry := by
    unfold farewell
    induction l.watchers generalizing l with
    | nil => rfl
    | cons watcher rest ih =>
      rw [List.foldl_cons, ih]
      cases watcher <;> rfl
  unfold close
  split
  case h_1 c registry removed => rw [bidden, removed]
  case h_2 registry absent =>
    unfold Registry.remove at absent ⊢
    split at absent
    case h_1 missing => rfl
    case h_2 => cases absent

/-- The id of the connection that a hello has completed. -/
def completedId? : Except RegistrationError RegistrationOutcome → Option ConnectionId
  | .ok (.completed id) => some id
  | _ => none

theorem completedId?_eq_none {result : Except RegistrationError RegistrationOutcome}
    (other : ∀ id, result ≠ .ok (.completed id)) : completedId? result = none := by
  unfold completedId?
  split
  case h_1 id => exact absurd rfl (other id)
  case h_2 => rfl

/-- What a lobby may be asked. -/
inductive Request where
  | hello (endpoint : Address) (token : OrderNumber) (hello : Hello) (now : Instant)
  | close (id : ConnectionId) (reason : DisconnectReason)
  | expire (now : Instant) (timeout : Duration)

def answer (l : Lobby) : Request → Lobby
  | .hello endpoint token hello now => (l.register endpoint token hello now).2
  | .close id reason => (l.close id reason).2
  | .expire now timeout => (l.expirePending now timeout).2

/-- The id of the connection that a request completes. -/
def enrols? (l : Lobby) : Request → Option ConnectionId
  | .hello endpoint token hello now => completedId? (l.register endpoint token hello now).1
  | _ => none

/-- The lobby after a run. -/
def after (l : Lobby) (requests : List Request) : Lobby :=
  requests.foldl answer l

/-- How many connections a run completes. -/
def enrolled : Lobby → List Request → Nat
  | _, [] => 0
  | l, request :: rest => (l.enrols? request).toList.length + enrolled (l.answer request) rest

theorem effect_answer (l : Lobby) (request : Request) :
    Registry.Effect l.registry (l.enrols? request) (l.answer request).registry := by
  cases request with
  | hello endpoint token hello now =>
    obtain ⟨same, alike⟩ := l.register_alike endpoint token hello now
    have plain := l.register_registry_of_not_completed endpoint token hello now
    simp only [enrols?, answer, same]
    have answers := l.registry.answers_register endpoint token hello now
    generalize l.registry.register endpoint token hello now = outcome at answers alike plain
    cases answers with
    | apart result tokens other =>
      rw [completedId?_eq_none other, plain other]
      exact .kept _ _ fun _ _ held => Or.inl held
    | dropped result tokens other =>
      rw [completedId?_eq_none other, plain other]
      exact .kept _ _ fun _ _ held => Or.inl (Table.find?_of_find?_erase held)
    | waits bound tokens binds incomplete =>
      rw [plain nofun]
      refine .kept _ _ fun nonce d held => ?_
      rw [Table.find?_insert] at held
      split at held
      · cases held
        exact Or.inr ⟨endpoint, hello, now, binds⟩
      · exact Or.inl (Table.find?_of_find?_erase held)
    | completes bound tokens address others free new binds complete room =>
      exact .enrolled _ endpoint hello now bound _ tokens address others
        (fun _ _ => Table.find?_of_find?_erase) free new binds complete room alike
  | close id reason =>
    rw [answer, close_registry]
    exact .closed id
  | expire now timeout =>
    obtain ⟨pending, tokens, same, still⟩ := l.registry.expirePending_eq now timeout
    have result : (l.answer (.expire now timeout)).registry = { l.registry with pending, tokens } :=
      same
    rw [result]
    exact .kept pending tokens fun nonce d held => Or.inl (still nonce d held)

theorem enrolled_append (l : Lobby) (first second : List Request) :
    l.enrolled (first ++ second) = l.enrolled first + (l.after first).enrolled second := by
  induction first generalizing l with
  | nil => simp [enrolled, after]
  | cons request rest ih =>
    have tail := ih (l.answer request)
    simp only [after] at tail
    simp only [List.cons_append, enrolled, after, List.foldl_cons, tail]
    omega

theorem numbered_after {l : Lobby} {k : Nat} (h : l.registry.Numbered k) (requests : List Request)
    (few : k + l.enrolled requests < UInt32.size - 1) :
    (l.after requests).registry.Numbered (k + l.enrolled requests) := by
  induction requests generalizing l k with
  | nil => exact h
  | cons request rest ih =>
    simp only [enrolled, ← Nat.add_assoc] at few ⊢
    exact ih ((l.effect_answer request).numbered h (by omega)) few

theorem sized_after {l : Lobby} (h : l.registry.Sized) (requests : List Request) :
    (l.after requests).registry.channels = l.registry.channels ∧
    (l.after requests).registry.Sized := by
  induction requests generalizing l with
  | nil => exact ⟨rfl, h⟩
  | cons request rest ih =>
    obtain ⟨same, sized⟩ := (l.effect_answer request).sized h
    obtain ⟨still, sizedAfter⟩ := ih sized
    exact ⟨still.trans same, sizedAfter⟩

end Lobby
end DatagramSession
