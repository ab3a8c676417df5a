import DatagramSession.Proofs.Enrolment
import Mathlib.Data.List.Induction
/-!
# Who an endpoint belongs to

Over any run of a lobby an endpoint leads only to a live connection that has it.  That a live
connection can be found from each of its endpoints is kept by every request but a hello that
completes a draft with an endpoint of a live connection: drafts are not checked against one another,
nor again when they are completed (`owned_iff_uncontested`).
-/
namespace DatagramSession

namespace Registry

/-- An endpoint leads only to a live connection that has it. -/
def Leads (r : Registry) : Prop :=
  ∀ e id, r.byEndpoint.find? e = some id → ∃ c, r.connection? id = some c ∧ e ∈ c.endpoints

/-- An endpoint leads to a connection if and only if the connection is live and has it. -/
def Owned (r : Registry) : Prop :=
  ∀ e id, r.byEndpoint.find? e = some id ↔ ∃ c, r.connection? id = some c ∧ e ∈ c.endpoints

/-- A connection that comes into being has no endpoint of a connection that was live before. -/
def Uncontested (r : Registry) (id? : Option ConnectionId) (r' : Registry) : Prop :=
  ∀ id ∈ id?, ∀ c, r'.connection? id = some c → ∀ e ∈ c.endpoints,
    ∀ other c', r.connection? other = some c' → e ∉ c'.endpoints

section
variable {r r' : Registry}

/-- No endpoint belongs to two live connections. -/
theorem Owned.unique (h : r.Owned) {e : Address} {id other : ConnectionId} {c c' : Connection}
    (live : r.connection? id = some c) (has : e ∈ c.endpoints)
    (live' : r.connection? other = some c') (has' : e ∈ c'.endpoints) : id = other := by
  have first := (h e id).2 ⟨c, live, has⟩
  have second := (h e other).2 ⟨c', live', has'⟩
  rw [first] at second
  exact Option.some.inj second

theorem Alike.endpoint (h : Alike r r') {id : ConnectionId} {e : Address} :
    (∃ c, r.connection? id = some c ∧ e ∈ c.endpoints) ↔
    ∃ c, r'.connection? id = some c ∧ e ∈ c.endpoints := by
  have carried {r r' : Registry} (h : Alike r r') :
      (∃ c, r'.connection? id = some c ∧ e ∈ c.endpoints) →
      ∃ c, r.connection? id = some c ∧ e ∈ c.endpoints := by
    rintro ⟨c, live, has⟩
    obtain ⟨c₀, before, same⟩ := h.live live
    have endpoints : c₀.endpoints = c.endpoints := congrArg (·.2.2) same
    exact ⟨c₀, before, endpoints ▸ has⟩
  exact ⟨carried h.symm, carried h⟩

theorem Alike.byEndpoint (h : Alike r r') : r'.byEndpoint = r.byEndpoint := by
  rw [h.rest]

theorem Alike.leads (h : Alike r r') (leads : r.Leads) : r'.Leads := by
  intro e id found
  rw [h.byEndpoint] at found
  exact h.endpoint.1 (leads e id found)

theorem Alike.owned (h : Alike r r') : r.Owned ↔ r'.Owned := by
  unfold Owned
  rw [h.byEndpoint]
  exact forall_congr' fun e => forall_congr' fun id => iff_congr Iff.rfl h.endpoint

theorem byEndpoint_enrol (r : Registry) (nonce : Nonce) (address : Address) (others : List Address)
    (now : Instant) (e : Address) : (r.enrol nonce address others now).2.byEndpoint.find? e =
      if e ∈ address :: others then some r.nextId else r.byEndpoint.find? e :=
  Table.find?_foldl_insert _ _ _ _

theorem leads_enrol (h : r.Leads) (fresh : r.connection? r.nextId = none) (nonce : Nonce)
    (address : Address) (others : List Address) (now : Instant) :
    (r.enrol nonce address others now).2.Leads := by
  intro e id found
  rw [byEndpoint_enrol] at found
  rw [connection?_enrol]
  split at found
  case isTrue has =>
    cases found
    exact ⟨_, if_pos rfl, has⟩
  case isFalse =>
    obtain ⟨c, live, has⟩ := h e id found
    have other : r.nextId ≠ id := by
      rintro rfl
      rw [fresh] at live
      cases live
    exact ⟨c, by rw [if_neg other]; exact live, has⟩

/-- A new connection takes its endpoints; the old ones keep theirs just when none of these is among
them. -/
theorem owned_enrol_iff (h : r.Owned) (fresh : r.connection? r.nextId = none) (nonce : Nonce)
    (address : Address) (others : List Address) (now : Instant) :
    (r.enrol nonce address others now).2.Owned ↔
      ∀ e ∈ address :: others, ∀ other c', r.connection? other = some c' → e ∉ c'.endpoints := by
  have older {other : ConnectionId} {c' : Connection} (live : r.connection? other = some c') :
      r.nextId ≠ other := by
    rintro rfl
    rw [fresh] at live
    cases live
  constructor
  · intro owned e taken other c' live has
    have kept : (r.enrol nonce address others now).2.connection? other = some c' := by
      rw [connection?_enrol, if_neg (older live)]
      exact live
    have found := (owned e other).2 ⟨c', kept, has⟩
    rw [byEndpoint_enrol, if_pos taken] at found
    exact older live (Option.some.inj found)
  · intro free e id
    refine ⟨leads_enrol (fun e id found => (h e id).1 found) fresh nonce address others now e id,
      ?_⟩
    rintro ⟨c, live, has⟩
    rw [connection?_enrol] at live
    rw [byEndpoint_enrol]
    split at live
    case isTrue same =>
      cases live
      have own : e ∈ address :: others := has
      rw [if_pos own, same]
    case isFalse =>
      rw [if_neg fun taken => free e taken id c live has]
      exact (h e id).2 ⟨c, live, has⟩

theorem byEndpoint_remove (r : Registry) {id : ConnectionId} {c : Connection}
    (live : r.connection? id = some c) (e : Address) :
    (r.remove id).2.byEndpoint.find? e = if e ∈ c.endpoints then none else
      r.byEndpoint.find? e := by
  simp only [remove, live]
  exact Table.find?_foldl_erase _ _ _

theorem leads_remove (h : r.Leads) (id : ConnectionId) : (r.remove id).2.Leads := by
  cases live : r.connection? id with
  | none =>
    simpa only [remove, live] using h
  | some c =>
    intro e key found
    rw [byEndpoint_remove r live] at found
    split at found
    case isTrue => cases found
    case isFalse foreign =>
      obtain ⟨c', live', has⟩ := h e key found
      have other : id ≠ key := by
        rintro rfl
        rw [live] at live'
        cases live'
        exact foreign has
      exact ⟨c', by rw [connection?_remove, if_neg other]; exact live', has⟩

theorem owned_remove (h : r.Owned) (id : ConnectionId) : (r.remove id).2.Owned := by
  intro e key
  refine ⟨leads_remove (fun e id found => (h e id).1 found) id e key, ?_⟩
  rintro ⟨c', live', has⟩
  rw [connection?_remove] at live'
  split at live'
  case isTrue => cases live'
  case isFalse other =>
    have found := (h e key).2 ⟨c', live', has⟩
    cases live : r.connection? id with
    | none => simpa only [remove, live] using found
    | some c =>
      rw [byEndpoint_remove r live, if_neg fun shared => other (h.unique live shared live' has)]
      exact found

theorem Effect.leads {id? : Option ConnectionId} (effect : Effect r id? r') (h : r.Leads)
    (fresh : r.connection? r.nextId = none) : r'.Leads := by
  cases effect with
  | kept => exact h
  | closed id => exact leads_remove h id
  | enrolled r' endpoint hello now bound pending tokens address others drafts free new binds
      complete room alike =>
    have before : Leads { r with pending, tokens } := h
    exact alike.leads (leads_enrol before fresh hello.nonce address others now)

/-- A request breaks ownership just when it completes a draft with a live connection's endpoint. -/
theorem Effect.owned_iff {id? : Option ConnectionId} (effect : Effect r id? r') (h : r.Owned)
    (fresh : r.connection? r.nextId = none) : r'.Owned ↔ Uncontested r id? r' := by
  cases effect with
  | kept => exact ⟨fun _ => nofun, fun _ => h⟩
  | closed id => exact ⟨fun _ => nofun, fun _ => owned_remove h id⟩
  | enrolled r' endpoint hello now bound pending tokens address others drafts free new binds
      complete room alike =>
    have before : Owned { r with pending, tokens } := h
    have own {e : Address} : e ∈ address :: others ↔
        ∃ c, r'.connection? r.nextId = some c ∧ e ∈ c.endpoints := by
      rw [← alike.endpoint, connection?_enrol, if_pos rfl]
      exact ⟨fun has => ⟨_, rfl, has⟩, fun ⟨c, same, has⟩ => by cases same; exact has⟩
    rw [← alike.owned, owned_enrol_iff before fresh]
    constructor
    · rintro free id ⟨⟩ c live e has
      exact free e (own.2 ⟨c, live, has⟩)
    · intro free e has
      obtain ⟨c, live, has⟩ := own.1 has
      exact free _ rfl c live e has

/-- With one channel the endpoint of a new connection has just been found to be free. -/
theorem Effect.uncontested {id? : Option ConnectionId} (effect : Effect r id? r') (h : r.Owned)
    (sized : r.Sized) (single : r.channels = 1) : Uncontested r id? r' := by
  cases effect with
  | kept => exact nofun
  | closed id => exact nofun
  | enrolled r' endpoint hello now bound pending tokens address others drafts free new binds
      complete room alike =>
    have endpoints : address :: others = [endpoint] := by
      obtain ⟨slots, has⟩ := Draft.bind_ok binds
      have short := bound.length_endpoints_le
      rw [slots, sized.draftFor, single] at short
      rw [Draft.endpoints_of_complete? complete] at short has
      cases others with
      | nil => rw [List.mem_singleton.1 has]
      | cons => simp at short
    rintro id ⟨⟩ c live e has other c' live' has'
    obtain ⟨c₀, enrolled, same⟩ := alike.live live
    rw [connection?_enrol, if_pos rfl] at enrolled
    cases enrolled
    have own : e ∈ address :: others :=
      (congrArg (·.2.2) same : address :: others = c.endpoints) ▸ has
    rw [endpoints, List.mem_singleton] at own
    subst own
    rw [connectionAt?, (h e other).2 ⟨c', live', has'⟩] at free
    exact absurd (live'.symm.trans free) nofun

end

end Registry

namespace Lobby

/-- A lobby that nobody has asked anything. -/
def opened (game : String) (version : UInt32) (channels maxClients : Nat)
    (watchers : List Watcher) : Lobby where
  registry := .empty game version channels maxClients
  watchers

theorem numbered_opened (game : String) (version : UInt32) (channels maxClients : Nat)
    (watchers : List Watcher) :
    (opened game version channels maxClients watchers).registry.Numbered 0 :=
  ⟨rfl, nofun⟩

theorem after_append_singleton (l : Lobby) (done : List Request) (request : Request) :
    l.after (done ++ [request]) = (l.after done).answer request := by
  simp [after]

/-- No draft that is completed has an endpoint of a live connection. -/
def Uncontested (l : Lobby) (request : Request) : Prop :=
  l.registry.Uncontested (l.enrols? request) (l.answer request).registry

section
variable {l : Lobby} {requests done : List Request}

theorem numbered_within (h : l.registry.Numbered 0) (few : l.enrolled requests < UInt32.size - 1)
    (before : done <+: requests) : (l.after done).registry.Numbered (l.enrolled done) := by
  obtain ⟨rest, rfl⟩ := before
  rw [enrolled_append] at few
  simpa using numbered_after h done (by omega)

theorem leads_after (h : l.registry.Leads) (numbered : l.registry.Numbered 0)
    (few : l.enrolled requests < UInt32.size - 1) (before : done <+: requests) :
    (l.after done).registry.Leads := by
  induction done using List.reverseRecOn with
  | nil => exact h
  | append_singleton done request ih =>
    have earlier : done <+: requests := (List.prefix_append _ _).trans before
    rw [after_append_singleton]
    exact ((l.after done).effect_answer request).leads (ih earlier)
      (numbered_within numbered few earlier).fresh

theorem owned_after (h : l.registry.Owned) (numbered : l.registry.Numbered 0)
    (few : l.enrolled requests < UInt32.size - 1)
    (free : ∀ done request, done ++ [request] <+: requests → (l.after done).registry.Owned →
      (l.after done).Uncontested request)
    (before : done <+: requests) : (l.after done).registry.Owned := by
  induction done using List.reverseRecOn with
  | nil => exact h
  | append_singleton done request ih =>
    have earlier : done <+: requests := (List.prefix_append _ _).trans before
    have fresh := (numbered_within numbered few earlier).fresh
    rw [after_append_singleton]
    exact (((l.after done).effect_answer request).owned_iff (ih earlier) fresh).2
      (free done request before (ih earlier))

end

/-- Throughout a run an endpoint leads only to a live connection that has it; and each live
connection is found from each of its endpoints, throughout, if and only if no draft is completed
with an endpoint of a connection that is live at that moment.  With one channel that never
happens. -/
theorem owned_iff_uncontested (game : String) (version : UInt32) (channels maxClients : Nat)
    (watchers : List Watcher) (requests : List Request)
    (few : (opened game version channels maxClients watchers).enrolled requests < UInt32.size - 1) :
    let l := opened game version channels maxClients watchers
    (∀ done, done <+: requests → (l.after done).registry.Leads) ∧
    ((∀ done, done <+: requests → (l.after done).registry.Owned) ↔
      ∀ done request, done ++ [request] <+: requests → (l.after done).Uncontested request) ∧
    (channels ≤ 1 → ∀ done, done <+: requests → (l.after done).registry.Owned) := by
  intro l
  have numbered := numbered_opened game version channels maxClients watchers
  have empty : l.registry.Owned := fun e id => ⟨nofun, nofun⟩
  refine ⟨fun done before => leads_after nofun numbered few before, ⟨?_, ?_⟩, ?_⟩
  · intro owned done request before
    have earlier : done <+: requests := (List.prefix_append _ _).trans before
    have fresh := (numbered_within numbered few earlier).fresh
    have later := owned _ before
    rw [after_append_singleton] at later
    exact (((l.after done).effect_answer request).owned_iff (owned done earlier) fresh).1 later
  · intro free done before
    exact owned_after empty numbered few (fun done request within _ => free done request within)
      before
  · intro single done before
    have sized : l.registry.Sized := ⟨Nat.le_max_right _ _, nofun⟩
    refine owned_after empty numbered few (fun done request _ owned => ?_) before
    obtain ⟨same, still⟩ := sized_after sized done
    have one : l.registry.channels = 1 := by
      change max channels 1 = 1
      omega
    exact ((l.after done).effect_answer request).uncontested owned still (same.trans one)

/-- One channel, two clients, and a third one at the endpoint of the first after that has been
closed. -/
theorem owned_iff_uncontested_single :
    let l := opened "courier" 1 1 32 [.peers, .events]
    let first : Address := ⟨.v4 2130706433, 5000⟩
    let requests : List Request := [
      .hello first 0 ⟨1, 0, "courier", 1⟩ 0,
      .hello ⟨.v4 2130706433, 5001⟩ 0 ⟨2, 0, "courier", 1⟩ 0,
      .close 1 .graceful,
      .hello first 1 ⟨3, 0, "courier", 1⟩ 0]
    l.enrolled requests = 3 ∧ (l.after requests).registry.Owned ∧
      (l.after requests).registry.byEndpoint.find? first = some 3 := by
  intro l first requests
  have enrolled : l.enrolled requests = 3 := by decide +kernel
  have few : l.enrolled requests < UInt32.size - 1 := by rw [enrolled]; decide
  have owned :=
    (owned_iff_uncontested "courier" 1 1 32 [.peers, .events] requests few).2.2 (Nat.le_refl 1)
  exact ⟨enrolled, owned requests (List.prefix_refl _), by decide +kernel⟩

/-- Two drafts with two channels each name one endpoint before either is complete. -/
theorem owned_taken_over :
    let l := opened "courier" 1 2 32 [.peers, .events]
    let shared : Address := ⟨.v4 2130706433, 5000⟩
    let requests : List Request := [
      .hello shared 0 ⟨1, 0, "courier", 1⟩ 0,
      .hello shared 1 ⟨2, 0, "courier", 1⟩ 0,
      .hello ⟨.v4 2130706433, 5001⟩ 0 ⟨1, 1, "courier", 1⟩ 0,
      .hello ⟨.v4 2130706433, 5002⟩ 0 ⟨2, 1, "courier", 1⟩ 0]
    l.enrolled requests < UInt32.size - 1 ∧ ¬ (l.after requests).registry.Owned ∧
      (l.after requests).registry.byEndpoint.find? shared = some 2 ∧
      ((l.after requests).registry.connection? 1).map Connection.endpoints
        = some [shared, ⟨.v4 2130706433, 5001⟩] := by
  intro l shared requests
  have found : (l.after requests).registry.byEndpoint.find? shared = some 2 := by decide +kernel
  have first : ((l.after requests).registry.connection? 1).map Connection.endpoints
      = some [shared, ⟨.v4 2130706433, 5001⟩] := by decide +kernel
  refine ⟨by decide +kernel, fun owned => ?_, found, first⟩
  obtain ⟨c, live, endpoints⟩ := Option.map_eq_some_iff.1 first
  have kept := (owned shared 1).2 ⟨c, live, endpoints ▸ List.mem_cons_self⟩
  rw [found] at kept
  cases kept

end Lobby
end DatagramSession
