import DatagramSession.Proofs.Refusals
import DatagramSession.Proofs.Tending
import Mathlib.Order.Fin.Basic
/-!
# Clients with several channels

A client with several channels says a hello from each of its endpoints, and these arrive in any
order.  After some of them the registry is as before but for one draft, with just those slots bound,
and for the tokens (`Registry.gathering`); the next hello binds one more slot, or completes the
connection if it is the last.  So what becomes of the hellos in the end, `Lobby.takeIn`, does not
depend on the order of their arrival (`Lobby.hellos_in_any_order`).
-/
namespace DatagramSession

/-- A client with a channel and some further ones, each with an endpoint of its own. -/
structure Newcomer (further : Nat) where
  nonce : Nonce
  endpoint : Fin (further + 1) → Address
  /-- The token of the hello on each channel. -/
  token : Fin (further + 1) → OrderNumber
  apart : Function.Injective endpoint

namespace Newcomer

variable {further : Nat} {c : Newcomer further} {said : List (Fin (further + 1))}
  {i : Fin (further + 1)} {now : Instant}

/-- The hello on a channel, of a client that matches the registry. -/
def hello (c : Newcomer further) (r : Registry) (i : Fin (further + 1)) : Hello :=
  ⟨c.nonce, UInt8.ofNat i, r.game, r.version⟩

/-- The draft that the hellos on some channels leave. -/
def draft (c : Newcomer further) (said : List (Fin (further + 1))) (now : Instant) : Draft where
  nonce := c.nonce
  slots := List.ofFn fun i => if i ∈ said then some (c.endpoint i) else none
  created := now

/-- The tokens once some channels have said hello. -/
def tokens (c : Newcomer further) (said : List (Fin (further + 1)))
    (t : Table Address OrderNumber) :
    Table Address OrderNumber :=
  said.foldl (fun t i => t.insert (c.endpoint i) (c.token i)) t

theorem draft_nil (c : Newcomer further) (now : Instant) :
    c.draft [] now = .empty c.nonce (further + 1) now := by
  have slots : (List.ofFn fun _ : Fin (further + 1) => (none : Option Address)) =
      List.replicate (further + 1) none :=
    List.eq_replicate_iff.2
      ⟨List.length_ofFn, fun _ mem => (List.mem_ofFn.1 mem).elim fun _ same => same.symm⟩
  simp only [draft, Draft.empty, List.not_mem_nil, if_false, slots,
    Nat.max_eq_left (Nat.le_add_left 1 further)]

theorem getElem?_slots_draft (c : Newcomer further) (said : List (Fin (further + 1)))
    (now : Instant) (i : Fin (further + 1)) :
    (c.draft said now).slots[(i : Nat)]? =
      some (if i ∈ said then some (c.endpoint i) else none) := by
  rw [draft, List.getElem?_ofFn, dif_pos i.isLt]

theorem bind_draft (few : further + 1 ≤ 256) (unsaid : i ∉ said) :
    (c.draft said now).bind (UInt8.ofNat i) (c.endpoint i) = .ok (c.draft (said ++ [i]) now) := by
  have channel : (UInt8.ofNat i).toNat = i :=
    UInt8.toNat_ofNat_of_lt' (Nat.lt_of_lt_of_le i.isLt few)
  have vacant : (c.draft said now).slots[(UInt8.ofNat i).toNat]? = some none := by
    rw [channel, getElem?_slots_draft, if_neg unsaid]
  rw [Draft.bind_of_vacant vacant, channel]
  have slots : (c.draft said now).slots.set i (some (c.endpoint i)) =
      (c.draft (said ++ [i]) now).slots := by
    refine List.ext_getElem? fun k => ?_
    rw [List.getElem?_set]
    by_cases within : k < further + 1
    · have other := c.getElem?_slots_draft said now ⟨k, within⟩
      have here := c.getElem?_slots_draft (said ++ [i]) now ⟨k, within⟩
      by_cases same : (i : Nat) = k
      · have own : (⟨k, within⟩ : Fin (further + 1)) = i := Fin.ext same.symm
        simp_all [draft]
      · have differs : (⟨k, within⟩ : Fin (further + 1)) ≠ i :=
          fun h => same (congrArg Fin.val h).symm
        simp_all
    · have beyond : (i : Nat) ≠ k := by omega
      rw [if_neg beyond, draft, draft, List.getElem?_ofFn, List.getElem?_ofFn, dif_neg within,
        dif_neg within]
  rw [slots]
  rfl

/-- A draft is incomplete as long as a channel has not said hello. -/
theorem complete?_draft_of_unsaid (unsaid : i ∉ said) : (c.draft said now).complete? = none := by
  have vacant : none ∈ (c.draft said now).slots := by
    rw [draft, List.mem_ofFn]
    exact ⟨i, if_neg unsaid⟩
  cases complete : (c.draft said now).complete? with
  | none => rfl
  | some => exact absurd vacant (Draft.isSome_complete?_iff.1 (complete ▸ rfl)).1

/-- Once all have said hello, it has the endpoints in the order of the channels, whatever the order
of the hellos. -/
theorem complete?_draft (all : ∀ i, i ∈ said) :
    (c.draft said now).complete? = some (c.endpoint 0, List.ofFn fun i => c.endpoint i.succ) := by
  have slots : (c.draft said now).slots = (List.ofFn c.endpoint).map some := by
    simp [draft, all, List.map_ofFn, Function.comp_def]
  have endpoints : (c.draft said now).endpoints = List.ofFn c.endpoint := by
    rw [Draft.endpoints, slots, List.filterMap_map]
    exact List.filterMap_some
  have complete : (c.draft said now).isComplete = true := by simp [Draft.isComplete, slots]
  rw [Draft.complete?, complete, endpoints, List.ofFn_succ]

theorem find?_tokens (c : Newcomer further) (said : List (Fin (further + 1)))
    (t : Table Address OrderNumber) (i : Fin (further + 1)) :
    (c.tokens said t).find? (c.endpoint i) = if i ∈ said then some (c.token i) else
      t.find? (c.endpoint i) := by
  unfold tokens
  induction said generalizing t with
  | nil => rfl
  | cons first rest ih =>
    rw [List.foldl_cons, ih, Table.find?_insert]
    by_cases later : i ∈ rest
    · simp [later]
    · by_cases same : first = i
      · simp [same]
      · simp [later, Ne.symm same, c.apart.ne same]

theorem find?_tokens_of_foreign {e : Address} (foreign : ∀ i, c.endpoint i ≠ e)
    (said : List (Fin (further + 1))) (t : Table Address OrderNumber) :
    (c.tokens said t).find? e = t.find? e := by
  unfold tokens
  induction said generalizing t with
  | nil => rfl
  | cons first rest ih => rw [List.foldl_cons, ih, Table.find?_insert, if_neg (foreign first)]

/-- It does not matter in which order the tokens are noted. -/
theorem find?_tokens_congr {said said' : List (Fin (further + 1))}
    (same : ∀ i, i ∈ said ↔ i ∈ said') (t : Table Address OrderNumber) (e : Address) :
    (c.tokens said t).find? e = (c.tokens said' t).find? e := by
  by_cases own : ∃ i, c.endpoint i = e
  · obtain ⟨i, rfl⟩ := own
    simp only [find?_tokens, same]
  · have foreign (i : Fin (further + 1)) : c.endpoint i ≠ e := fun h => own ⟨i, h⟩
    rw [find?_tokens_of_foreign foreign, find?_tokens_of_foreign foreign]

end Newcomer

namespace Registry

variable {further : Nat} {r : Registry} {c : Newcomer further} {said : List (Fin (further + 1))}
  {i : Fin (further + 1)} {now : Instant}

/-- The registry has room for a client of whom it has heard nothing, old tokens of its endpoints
apart. -/
structure Expects (r : Registry) (c : Newcomer further) : Prop where
  channels : r.channels = further + 1
  /-- A channel number is one byte. -/
  few : further + 1 ≤ 256
  room : r.connections.size < r.maxClients
  undrafted : r.pending.find? c.nonce = none
  new : r.connectionOf? c.nonce = none
  free : ∀ i, r.byEndpoint.find? (c.endpoint i) = none
  newer : ∀ i, (c.token i).isNewer (r.tokens.find? (c.endpoint i)) = true

/-- The registry once some channels of a client have said hello, but not all of them. -/
def gathering (r : Registry) (c : Newcomer further) (said : List (Fin (further + 1)))
    (now : Instant) : Registry :=
  { r with
    pending := if said = [] then r.pending else r.pending.insert c.nonce (c.draft said now)
    tokens := c.tokens said r.tokens }

/-- The registry with a client as its newest connection. -/
def takeIn (r : Registry) (c : Newcomer further) (now : Instant) : Registry :=
  (r.enrol c.nonce (c.endpoint 0) (List.ofFn fun i => c.endpoint i.succ) now).2

theorem erase_pending_gathering (expected : r.Expects c) (said : List (Fin (further + 1)))
    (now : Instant) :
    (r.gathering c said now).pending.erase c.nonce = r.pending := by
  simp only [gathering]
  split
  · exact Table.erase_of_absent expected.undrafted
  · exact Table.erase_insert_of_absent expected.undrafted _

theorem draftFor_gathering (expected : r.Expects c) (said : List (Fin (further + 1)))
    (i : Fin (further + 1)) (now : Instant) :
    (r.gathering c said now).draftFor (c.hello r i) now = c.draft said now := by
  cases said with
  | nil =>
    have undrafted : (r.gathering c [] now).pending.find? (c.hello r i).nonce = none :=
      expected.undrafted
    have channels : (r.gathering c [] now).channels = further + 1 := expected.channels
    rw [draftFor, undrafted, channels, c.draft_nil]
    rfl
  | cons first rest =>
    have bound : (r.gathering c (first :: rest) now).pending.find? c.nonce =
        some (c.draft (first :: rest) now) := by
      simp [gathering, Table.find?_insert]
    rw [draftFor, Newcomer.hello, bound]
    rfl

/-- One more hello: the client waits for the others, or it is admitted if this was the last. -/
theorem register_gathering (expected : r.Expects c) (unsaid : i ∉ said) (now : Instant) :
    (r.gathering c said now).register (c.endpoint i) (c.token i) (c.hello r i) now =
      if ∀ j, j ∈ said ++ [i] then
        (.ok (.completed r.nextId),
          { r.takeIn c now with tokens := c.tokens (said ++ [i]) r.tokens })
      else (.ok .pending, r.gathering c (said ++ [i]) now) := by
  have noted : (c.tokens said r.tokens).insert (c.endpoint i) (c.token i) =
      c.tokens (said ++ [i]) r.tokens := by
    simp [Newcomer.tokens]
  have binds {bound : Draft}
      (h : ((r.gathering c said now).draftFor (c.hello r i) now).bind (c.hello r i).channel
        (c.endpoint i) =
        .ok bound) : bound = c.draft (said ++ [i]) now := by
    rw [draftFor_gathering expected] at h
    exact Except.ok.inj (h.symm.trans (Newcomer.bind_draft expected.few unsaid))
  have exits := (r.gathering c said now).exits_register (c.endpoint i) (c.token i) (c.hello r i) now
  generalize (r.gathering c said now).register (c.endpoint i) (c.token i) (c.hello r i) now =
    outcome at exits
  cases exits with
  | stale old =>
    have newer := expected.newer i
    simp [isStale, gathering, Newcomer.find?_tokens, unsaid, newer] at old
  | duplicate _ c' held | inUse _ c' held =>
    have free : (r.gathering c said now).byEndpoint.find? (c.endpoint i) = none := expected.free i
    simp [connectionAt?, free] at held
  | taken _ _ c' live => cases live.symm.trans expected.new
  | violates _ _ _ e unbound =>
    rw [draftFor_gathering expected] at unbound
    cases unbound.symm.trans (Newcomer.bind_draft expected.few unsaid)
  | rejected _ _ _ _ _ _ refuses =>
    cases refuses with
    | mismatch foreign => exact absurd foreign (by simp [Newcomer.hello, gathering])
    | full _ _ crowded => exact absurd expected.room (Nat.not_lt.2 crowded)
  | waits _ _ _ _ bound bounds incomplete =>
    rw [binds bounds] at incomplete ⊢
    have some_left : ¬ ∀ j, j ∈ said ++ [i] := by
      intro all
      rw [Newcomer.complete?_draft all] at incomplete
      cases incomplete
    rw [if_neg some_left]
    simp only [Newcomer.hello, erase_pending_gathering expected]
    simp [gathering, note, noted]
  | completes _ _ _ _ bound bounds address others complete room =>
    rw [binds bounds] at complete
    have all : ∀ j, j ∈ said ++ [i] := by
      intro j
      by_contra unsaid
      rw [Newcomer.complete?_draft_of_unsaid unsaid] at complete
      cases complete
    rw [Newcomer.complete?_draft all] at complete
    cases complete
    rw [if_pos all]
    have left : ((r.gathering c said now).note (c.endpoint i) (c.token i)).withdraw (c.hello r i) =
        { r with tokens := c.tokens (said ++ [i]) r.tokens } := by
      simp only [withdraw, note, Newcomer.hello, erase_pending_gathering expected]
      simp [gathering, noted]
    rw [left]
    rfl

end Registry

namespace Lobby

variable {further : Nat} {l : Lobby} {c : Newcomer further} {said order : List (Fin (further + 1))}
  {i : Fin (further + 1)} {now : Instant}

/-- The lobby with other tokens. -/
def withTokens (l : Lobby) (tokens : Table Address OrderNumber) : Lobby :=
  { l with registry := { l.registry with tokens } }

/-- Nobody looks at the tokens when a connection is introduced. -/
theorem introduce_withTokens (l : Lobby) (tokens : Table Address OrderNumber) (id : ConnectionId)
    (now : Instant) :
    (l.withTokens tokens).introduce id now = (l.introduce id now).withTokens tokens := by
  have announced (watchers : List Watcher) (made : Connection) (l : Lobby) :
      watchers.foldl (announceTo made now) (l.withTokens tokens) =
        (watchers.foldl (announceTo made now) l).withTokens tokens := by
    induction watchers generalizing l with
    | nil => rfl
    | cons watcher rest ih =>
      rw [List.foldl_cons, List.foldl_cons, ← ih]
      cases watcher <;> rfl
  have same : (l.withTokens tokens).registry.connection? id = l.registry.connection? id := rfl
  unfold introduce
  rw [same]
  cases l.registry.connection? id with
  | none => rfl
  | some made =>
    have after : (l.withTokens tokens).announce made now =
        (l.announce made now).withTokens tokens :=
      announced l.watchers made l
    simp only [after]
    rfl

/-- The hello on a channel as a request. -/
def helloOn (l : Lobby) (c : Newcomer further) (now : Instant) (i : Fin (further + 1)) : Request :=
  .hello (c.endpoint i) (c.token i) (c.hello l.registry i) now

/-- The lobby with a client as its newest connection, which everyone has heard of. -/
def takeIn (l : Lobby) (c : Newcomer further) (now : Instant) : Lobby :=
  { l with registry := l.registry.takeIn c now }.introduce l.registry.nextId now

/-- What one more hello is answered, and what it leaves. -/
theorem register_gathering (expected : l.registry.Expects c) (unsaid : i ∉ said) (now : Instant) :
    { l with registry := l.registry.gathering c said now }.register (c.endpoint i) (c.token i)
      (c.hello l.registry i)
        now =
      if ∀ j, j ∈ said ++ [i] then
        (.ok (.completed l.registry.nextId),
          (l.takeIn c now).withTokens (c.tokens (said ++ [i]) l.registry.tokens))
      else (.ok .pending, { l with registry := l.registry.gathering c (said ++ [i]) now }) := by
  have answered := Registry.register_gathering expected unsaid now
  unfold register
  dsimp only
  rw [answered]
  by_cases last : ∀ j, j ∈ said ++ [i]
  · simp only [if_pos last]
    exact congrArg (Prod.mk _)
      (introduce_withTokens { l with registry := l.registry.takeIn c now } _ _ _)
  · simp only [if_neg last]

theorem after_helloOn (l : Lobby) (c : Newcomer further) (now : Instant)
    (said : List (Fin (further + 1))) (i : Fin (further + 1)) :
    l.after ((said ++ [i]).map (l.helloOn c now)) =
      ((l.after (said.map (l.helloOn c now))).register (c.endpoint i) (c.token i)
        (c.hello l.registry i) now).2 := by
  simp [after, helloOn, answer]

/-- As long as a channel is silent, nothing has happened but that the others wait. -/
theorem after_some_hellos (expected : l.registry.Expects c) (now : Instant) (once : said.Nodup)
    (silent : ∃ j, j ∉ said) :
    l.after (said.map (l.helloOn c now)) =
      { l with registry := l.registry.gathering c said now } := by
  induction said using List.reverseRecOn with
  | nil => rfl
  | append_singleton said i ih =>
    obtain ⟨j, unsaid⟩ := silent
    obtain ⟨once, -, differs⟩ := List.nodup_append.1 once
    have next : i ∉ said := fun mem => differs i mem i (List.mem_singleton_self i) rfl
    have before := ih once ⟨j, fun mem => unsaid (List.mem_append_left _ mem)⟩
    rw [after_helloOn, before, register_gathering expected next, if_neg fun all => unsaid (all j)]

/-- The hellos of a client on all of its channels, in any order at all: every one but the last waits
for the others, and the last completes the connection, which has the endpoints in the order of the
channels and waits for two confirmations.  The lobby that this leaves is the same for every order,
tables, peers, events and notices alike: the tokens may have come in another order, but each
endpoint has the same one. -/
theorem hellos_in_any_order (expected : l.registry.Expects c) (now : Instant)
    (each : order.Perm (List.finRange (further + 1))) :
    (∀ said i rest, order = said ++ i :: rest →
      ((l.after (said.map (l.helloOn c now))).register (c.endpoint i) (c.token i)
        (c.hello l.registry i) now).1 =
        if rest = [] then .ok (.completed l.registry.nextId) else .ok .pending) ∧
    (∃ made, (l.after (order.map (l.helloOn c now))).registry.connection? l.registry.nextId =
      some made ∧
      made.endpoints = List.ofFn c.endpoint ∧
      made.control = { waiting := [.registered l.registry.nextId, .servicesReady] }) ∧
    ∃ tokens, l.after (order.map (l.helloOn c now)) = (l.takeIn c now).withTokens tokens ∧
      ∀ e, tokens.find? e = (c.tokens (List.finRange (further + 1)) l.registry.tokens).find? e := by
  have once : order.Nodup := each.nodup_iff.2 (List.nodup_finRange _)
  have all (j : Fin (further + 1)) : j ∈ order := each.mem_iff.2 (List.mem_finRange j)
  have prefixes {said rest : List (Fin (further + 1))} {i : Fin (further + 1)}
      (split : order = said ++ i :: rest) :
      l.after (said.map (l.helloOn c now)) =
      { l with registry := l.registry.gathering c said now } ∧ i ∉ said := by
    rw [split] at once
    obtain ⟨before, -, differs⟩ := List.nodup_append.1 once
    have unsaid : i ∉ said := fun mem => differs i mem i List.mem_cons_self rfl
    exact ⟨after_some_hellos expected now before ⟨i, unsaid⟩, unsaid⟩
  obtain ⟨said, i, last⟩ : ∃ said i, order = said ++ [i] := by
    cases order using List.reverseRecOn with
    | nil => exact absurd (all 0) List.not_mem_nil
    | append_singleton said i _ => exact ⟨said, i, rfl⟩
  obtain ⟨before, unsaid⟩ := prefixes last
  have completes := l.register_gathering expected unsaid now
  rw [if_pos (last ▸ all), ← before] at completes
  have admitted : l.after (order.map (l.helloOn c now)) =
      (l.takeIn c now).withTokens (c.tokens order l.registry.tokens) := by
    rw [last, after_helloOn, completes]
  refine ⟨fun said i rest split => ?_, ?_, _, admitted, ?_⟩
  · obtain ⟨before, unsaid⟩ := prefixes split
    rw [before, register_gathering expected unsaid]
    cases rest with
    | nil => rw [if_pos (split ▸ all), if_pos rfl]
    | cons next rest =>
      have silent : next ∉ said ++ [i] := by
        rw [split, List.append_cons] at once
        exact fun mem => (List.nodup_append.1 once).2.2 next mem next List.mem_cons_self rfl
      rw [if_neg fun all => silent (all next), if_neg (List.cons_ne_nil _ _)]
  · obtain ⟨⟨made, live, control⟩, -⟩ := control_register (congrArg Prod.fst completes)
    rw [← after_helloOn, ← last] at live
    refine ⟨made, live, ?_, control⟩
    rw [admitted] at live
    obtain ⟨c₀, before, same⟩ :=
      (introduce_alike { l with registry := l.registry.takeIn c now } _ now).live live
    rw [Registry.takeIn, Registry.connection?_enrol, if_pos rfl] at before
    cases before
    have endpoints : made.endpoints = c.endpoint 0 :: List.ofFn fun i => c.endpoint i.succ :=
      (congrArg (·.2.2) same).symm
    rw [endpoints, List.ofFn_succ]
  · exact Newcomer.find?_tokens_congr (fun j => ⟨fun _ => List.mem_finRange j, fun _ => all j⟩) _

/-- Three channels, of which the last says hello first; the endpoint of the second is in another
draft, with an older token. -/
theorem hellos_in_any_order_three :
    let l := (opened "courier" 1 3 32 [.peers, .events]).after
      [.hello ⟨.v4 1, 5001⟩ 3 ⟨9, 0, "courier", 1⟩ 0]
    let c : Newcomer 2 := {
      nonce := 7
      endpoint := fun i => ⟨.v4 1, 5000 + UInt16.ofNat i⟩
      token := fun i => 4 + UInt32.ofNat i
      apart := by unfold Function.Injective; decide }
    l.registry.Expects c ∧ [2, 0, 1].Perm (List.finRange 3) ∧
      (l.register ⟨.v4 1, 5002⟩ 6 ⟨7, 2, "courier", 1⟩ 5).1 = .ok .pending ∧
      ∃ made, (l.after ([2, 0, 1].map (l.helloOn c 5))).registry.connection? 1 = some made ∧
        made.endpoints = [⟨.v4 1, 5000⟩, ⟨.v4 1, 5001⟩, ⟨.v4 1, 5002⟩] ∧
        made.control = { waiting := [.registered 1, .servicesReady] } := by
  intro l c
  have expected : l.registry.Expects c :=
    ⟨by decide +kernel, by decide, by decide +kernel, by decide +kernel, by decide +kernel,
      by decide +kernel, by decide +kernel⟩
  have each : [2, 0, 1].Perm (List.finRange 3) := by decide
  have endpoints : List.ofFn c.endpoint = [⟨.v4 1, 5000⟩, ⟨.v4 1, 5001⟩, ⟨.v4 1, 5002⟩] := by
    decide +kernel
  have next : l.registry.nextId = 1 := by decide +kernel
  have settings : l.registry.game = "courier" ∧ l.registry.version = 1 := by decide +kernel
  have last : c.endpoint 2 = ⟨.v4 1, 5002⟩ ∧ c.token 2 = 6 ∧
      c.hello l.registry 2 = ⟨7, 2, "courier", 1⟩ := by
    decide +kernel
  clear_value l c
  obtain ⟨answers, made, -⟩ := hellos_in_any_order expected 5 each
  have waits := answers [] 2 [0, 1] rfl
  rw [last.1, last.2.1, last.2.2, if_neg (by simp)] at waits
  rw [next, endpoints] at made
  exact ⟨expected, each, waits, made⟩

end Lobby

end DatagramSession
