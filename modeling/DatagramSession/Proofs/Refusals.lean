import DatagramSession.Proofs.Replays
import DatagramSession.Proofs.Turnover
/-!
# Hellos that come to nothing

A hello changes the tables before it is known what becomes of it: its token is noted, the draft of
its nonce is taken out and bound.  When it comes to nothing, whether it waits for others, is refused
or is against the protocol, everyone else is `Registry.Bystanding`: the live connections and the
ways to them, the other drafts, and the tokens of all endpoints that are still known.  A hello that
is refused takes its draft with it, and where nobody shares the endpoints there is no trace of
either (`Lobby.failed_hello_contained`).
-/
namespace DatagramSession

namespace Table

variable {κ ν : Type} [DecidableEq κ]

theorem entries_foldl_erase (t : Table κ ν) (keys : List κ) :
    (keys.foldl erase t).entries = t.entries.filter fun entry => entry.1 ∉ keys := by
  induction keys generalizing t with
  | nil => simp
  | cons key rest ih =>
    rw [List.foldl_cons, ih]
    simp only [erase, List.filter_filter]
    refine List.filter_congr fun entry _ => ?_
    by_cases same : entry.1 = key <;> simp [same]

/-- It does not matter in which order or how often keys are taken out. -/
theorem foldl_erase_congr {keys keys' : List κ} (same : ∀ k, k ∈ keys ↔ k ∈ keys') (t : Table κ ν) :
    keys.foldl erase t = keys'.foldl erase t := by
  ext1
  simp only [entries_foldl_erase, same]

theorem foldl_erase_insert {key : κ} {keys : List κ} (taken : key ∈ keys) (t : Table κ ν)
    (value : ν) :
    keys.foldl erase (t.insert key value) = keys.foldl erase t := by
  have again (k : κ) : k ∈ keys ↔ k ∈ key :: keys := by
    simp only [List.mem_cons, iff_or_self]
    rintro rfl
    exact taken
  rw [foldl_erase_congr again, List.foldl_cons, erase_insert, foldl_erase_congr again t,
    List.foldl_cons]

end Table

/-- The channel of a hello does not fit its connection. -/
def RegistrationError.OfChannel : RegistrationError → Prop
  | .channelOutOfRange .. | .channelConflict .. => True
  | .endpointInUse _ => False

namespace Draft

theorem endpoints_empty (nonce : Nonce) (channels : Nat) (now : Instant) :
    (empty nonce channels now).endpoints = [] := by
  simp [endpoints, empty]

theorem ofChannel_of_bind {d : Draft} {channel : UInt8} {endpoint : Address} {e : RegistrationError}
    (unbound : d.bind channel endpoint = .error e) : e.OfChannel := by
  unfold bind at unbound
  split at unbound
  case h_1 =>
    cases unbound
    trivial
  case h_2 =>
    split at unbound
    · cases unbound
    · cases unbound
      trivial
  case h_3 => cases unbound

/-- An empty slot takes any endpoint. -/
theorem bind_of_vacant {d : Draft} {channel : UInt8} (vacant : d.slots[channel.toNat]? = some none)
    (endpoint : Address) :
    d.bind channel endpoint =
      .ok { d with slots := d.slots.set channel.toNat (some endpoint) } := by
  rw [bind, vacant]

theorem vacant_empty {nonce : Nonce} {channels : Nat} {now : Instant} {channel : UInt8}
    (inside : channel.toNat < max channels 1) :
    (empty nonce channels now).slots[channel.toNat]? = some none := by
  simp [empty, inside]

theorem isComplete_iff {d : Draft} : d.isComplete = true ↔ none ∉ d.slots := by
  rw [isComplete, List.all_eq_true]
  constructor
  · intro bound vacant
    cases bound none vacant
  · intro none_absent slot mem
    cases slot with
    | none => exact absurd mem none_absent
    | some => rfl

theorem isSome_complete?_iff {d : Draft} : (d.complete?).isSome = true ↔
    none ∉ d.slots ∧ d.slots ≠ [] := by
  rw [← isComplete_iff]
  constructor
  · intro complete
    obtain ⟨⟨address, others⟩, found⟩ := Option.isSome_iff_exists.1 complete
    refine ⟨?_, ?_⟩
    · unfold complete? at found
      split at found
      · assumption
      · cases found
    · rw [← List.length_pos_iff, ← length_of_complete? found]
      exact Nat.succ_pos _
  · rintro ⟨complete, some_slot⟩
    cases bound : d.endpoints with
    | nil =>
      obtain ⟨slot, mem⟩ := List.exists_mem_of_ne_nil _ some_slot
      cases slot with
      | none => exact absurd mem (isComplete_iff.1 complete)
      | some e =>
        have has : e ∈ d.endpoints := mem_endpoints_iff.2 mem
        rw [bound] at has
        cases has
    | cons first rest => simp [complete?, complete, bound]

/-- A draft with one bound slot is complete if and only if there is no other slot. -/
theorem isSome_complete?_first {nonce : Nonce} {channels : Nat} {now : Instant} {channel : UInt8}
    {endpoint : Address} {bound : Draft} (inside : channel.toNat < max channels 1)
    (binds : (empty nonce channels now).bind channel endpoint = .ok bound) :
    (bound.complete?).isSome = true ↔ channels ≤ 1 := by
  rw [bind_of_vacant (vacant_empty inside)] at binds
  cases binds
  constructor
  · intro complete
    by_contra several
    obtain ⟨other, differs, within⟩ : ∃ i, channel.toNat ≠ i ∧ i < max channels 1 := by
      by_cases first : channel.toNat = 0
      · exact ⟨1, by omega, by omega⟩
      · exact ⟨0, first, by omega⟩
    refine (isSome_complete?_iff.1 complete).1 (List.mem_of_getElem? (i := other) ?_)
    rw [List.getElem?_set_ne differs]
    simp [empty, within]
  · intro single
    have first : channel.toNat = 0 := by omega
    have one : max channels 1 = 1 := by omega
    simp [empty, one, first, complete?, isComplete, endpoints]

end Draft

namespace Registry

/-- An endpoint leads to a connection or is bound in a draft. -/
def Known (r : Registry) (e : Address) : Prop :=
  (r.byEndpoint.find? e).isSome = true ∨ ∃ nonce d, r.pending.find? nonce = some d ∧ e ∈ d.endpoints

/-- The endpoints that are bound in the draft of a nonce. -/
def drafted (r : Registry) (nonce : Nonce) : List Address :=
  ((r.pending.find? nonce).map Draft.endpoints).getD []

/-- Whatever a hello has done to the draft of its nonce, everyone else stands by. -/
structure Bystanding (r r' : Registry) (endpoint : Address) (token : OrderNumber) (nonce : Nonce) :
    Prop where
  /-- Live connections, the ways to them, settings and the next id are as before. -/
  rest : r' = { r with pending := r'.pending, tokens := r'.tokens }
  drafts : ∀ n, n ≠ nonce → r'.pending.find? n = r.pending.find? n
  /-- Of the endpoints that are still known only the one that the hello came from has another
  token. -/
  tokens : ∀ e, r'.Known e → r'.tokens.find? e = if e = endpoint then some token else
    r.tokens.find? e
  foreign : ∀ e, e ≠ endpoint → e ∉ r.drafted nonce → r'.tokens.find? e = r.tokens.find? e

/-- The endpoint of a hello and those of its draft are in no other draft and lead nowhere. -/
def Unshared (r : Registry) (endpoint : Address) (nonce : Nonce) : Prop :=
  ∀ e ∈ endpoint :: r.drafted nonce, r.byEndpoint.find? e = none ∧
    ∀ n d, n ≠ nonce → r.pending.find? n = some d → e ∉ d.endpoints

/-- The registry without the draft of a nonce and without the tokens of its endpoints and of one
more. -/
def forget (r : Registry) (endpoint : Address) (nonce : Nonce) : Registry :=
  { r with
    pending := r.pending.erase nonce
    tokens := (endpoint :: r.drafted nonce).foldl Table.erase r.tokens }

/-- Neither the endpoint nor the nonce has left a trace. -/
structure Traceless (r : Registry) (endpoint : Address) (nonce : Nonce) : Prop where
  token : r.tokens.find? endpoint = none
  free : r.connectionAt? endpoint = none
  new : r.connectionOf? nonce = none
  undrafted : r.pending.find? nonce = none

section
variable {r : Registry} {endpoint e : Address} {token : OrderNumber} {hello : Hello} {now : Instant}
  {nonce : Nonce}

theorem holds_iff : r.holds e = true ↔ r.Known e := by
  simp only [holds, Bool.or_eq_true, Table.contains, List.any_eq_true, Table.mem_values_iff,
    Draft.hasEndpoint, List.contains_iff_mem, Known]
  refine or_congr Iff.rfl ⟨?_, ?_⟩
  · rintro ⟨d, ⟨n, waits⟩, has⟩
    exact ⟨n, d, waits, has⟩
  · rintro ⟨n, d, waits, has⟩
    exact ⟨d, ⟨n, waits⟩, has⟩

theorem endpoints_draftFor (r : Registry) (hello : Hello) (now : Instant) :
    (r.draftFor hello now).endpoints = r.drafted hello.nonce := by
  unfold draftFor drafted
  cases r.pending.find? hello.nonce with
  | none => exact Draft.endpoints_empty _ _ _
  | some => rfl

theorem ofChannel_takenChannel (r : Registry) (c : Connection) (channel : UInt8)
    (endpoint : Address) :
    (r.takenChannel c channel endpoint).OfChannel := by
  unfold takenChannel
  split <;> trivial

/-! ## Tokens that are released -/

theorem find?_releaseTokens_of_not_mem {endpoints : List Address} (other : e ∉ endpoints) :
    (r.releaseTokens endpoints).tokens.find? e = r.tokens.find? e := by
  unfold releaseTokens
  induction endpoints generalizing r with
  | nil => rfl
  | cons first rest ih =>
    obtain ⟨differs, later⟩ := not_or.1 (mt List.mem_cons.2 other)
    rw [List.foldl_cons, ih later, releaseToken]
    split
    · rfl
    · rw [Table.find?_erase, if_neg (Ne.symm differs)]

/-- Where nobody holds the endpoints, all of their tokens go. -/
theorem releaseTokens_of_not_known {endpoints : List Address}
    (unknown : ∀ e ∈ endpoints, ¬ r.Known e) :
    r.releaseTokens endpoints = { r with tokens := endpoints.foldl Table.erase r.tokens } := by
  unfold releaseTokens
  induction endpoints generalizing r with
  | nil => rfl
  | cons first rest ih =>
    obtain ⟨here, later⟩ := List.forall_mem_cons.1 unknown
    have released : r.releaseToken first = { r with tokens := r.tokens.erase first } :=
      if_neg (mt holds_iff.1 here)
    have still : ∀ e ∈ rest, ¬ Known { r with tokens := r.tokens.erase first } e := later
    rw [List.foldl_cons, released, ih still, List.foldl_cons]

/-- What a hello that completes nothing does: its token is noted, its draft replaced or taken out,
and tokens of its own endpoints are released. -/
theorem bystanding_release (pending : Table Nonce Draft) (endpoints : List Address)
    (drafts : ∀ n, n ≠ nonce → pending.find? n = r.pending.find? n)
    (own : ∀ e ∈ endpoints, e = endpoint ∨ e ∈ r.drafted nonce) :
    r.Bystanding ({ r.note endpoint token with pending }.releaseTokens endpoints) endpoint token
      nonce := by
  have same := releaseTokens_eq { r.note endpoint token with pending } endpoints
  have noted (e : Address) : (r.note endpoint token).tokens.find? e =
      if e = endpoint then some token else r.tokens.find? e := by
    simp only [note, Table.find?_insert, eq_comm]
  refine ⟨?_, fun n other => ?_, fun e known => ?_, fun e other strange => ?_⟩
  · rw [same]
    rfl
  · rw [same]
    exact drafts n other
  · rw [same] at known
    have holds : holds { r.note endpoint token with pending } e = true := holds_iff.2 known
    rw [find?_releaseTokens holds]
    exact noted e
  · rw [find?_releaseTokens_of_not_mem fun mem => (own e mem).elim other strange]
    exact (noted e).trans (if_neg other)

/-- If nobody shares the endpoints, nothing is left of the draft and the hello. -/
theorem release_of_unshared (unshared : r.Unshared endpoint nonce) {endpoints : List Address}
    (own : ∀ e, e ∈ endpoints ↔ e ∈ endpoint :: r.drafted nonce) :
    { r.note endpoint token with pending := r.pending.erase nonce }.releaseTokens endpoints
      = r.forget endpoint nonce := by
  have unknown : ∀ e ∈ endpoints,
      ¬ Known { r.note endpoint token with pending := r.pending.erase nonce } e := by
    intro e mem
    obtain ⟨nowhere, alone⟩ := unshared e ((own e).1 mem)
    rintro (leads | ⟨n, d, waits, has⟩)
    · have led : (r.byEndpoint.find? e).isSome = true := leads
      rw [nowhere] at led
      cases led
    · rw [Table.find?_erase] at waits
      split at waits
      · cases waits
      · next other => exact alone n d (Ne.symm other) waits has
  have erased : endpoints.foldl Table.erase (r.tokens.insert endpoint token) =
      (endpoint :: r.drafted nonce).foldl Table.erase r.tokens := by
    rw [Table.foldl_erase_congr own, Table.foldl_erase_insert List.mem_cons_self]
  rw [releaseTokens_of_not_known unknown, forget, ← erased]
  rfl

/-! ## Starting again -/

theorem traceless_forget (unshared : r.Unshared endpoint nonce)
    (own : e ∈ endpoint :: r.drafted nonce) {again : Nonce}
    (new : (r.forget endpoint nonce).connectionOf? again = none)
    (undrafted : (r.forget endpoint nonce).pending.find? again = none) :
    (r.forget endpoint nonce).Traceless e again := by
  refine ⟨?_, ?_, new, undrafted⟩
  · rw [forget, Table.find?_foldl_erase, if_pos own]
  · have nowhere : (r.forget endpoint nonce).byEndpoint.find? e = none := (unshared e own).1
    rw [connectionAt?, nowhere]
    rfl

/-- What becomes of the first hello of a client that nobody knows. -/
def firstAnswer (r : Registry) : Except RegistrationError RegistrationOutcome :=
  if 1 < r.channels then .ok .pending
  else if r.connections.size < r.maxClients then .ok (.completed r.nextId)
  else .ok (.rejected "Server full")

/-- A client of whom there is no trace is taken up, whatever the token of its hello is. -/
theorem register_of_traceless (fresh : r.Traceless endpoint hello.nonce) (token : OrderNumber)
    (now : Instant) (matching : hello.game = r.game ∧ hello.version = r.version)
    (inside : hello.channel.toNat < max r.channels 1) :
    (r.register endpoint token hello now).1 = r.firstAnswer := by
  have empty : r.draftFor hello now = .empty hello.nonce r.channels now := by
    rw [draftFor, fresh.undrafted]; rfl
  have exits := r.exits_register endpoint token hello now
  generalize r.register endpoint token hello now = outcome at exits
  cases exits with
  | stale old => simp [isStale, fresh.token] at old
  | duplicate _ c held | inUse _ c held => cases held.symm.trans fresh.free
  | taken _ _ c live => cases live.symm.trans fresh.new
  | violates _ _ _ error unbound =>
    rw [empty, Draft.bind_of_vacant (Draft.vacant_empty inside)] at unbound
    cases unbound
  | rejected _ _ _ bound binds reason refuses =>
    cases refuses with
    | mismatch foreign => exact absurd matching fun same => foreign.elim (· same.1) (· same.2)
    | full _ complete crowded =>
      have single := (Draft.isSome_complete?_first inside (empty ▸ binds)).1 complete
      simp [firstAnswer, single, Nat.not_lt.2 crowded]
  | waits _ _ _ _ bound binds incomplete =>
    have several : ¬ r.channels ≤ 1 := by
      rw [← Draft.isSome_complete?_first inside (empty ▸ binds), incomplete]
      exact Bool.false_ne_true
    simp [firstAnswer, Nat.lt_of_not_le several]
  | completes _ _ _ _ bound binds address others complete room =>
    have single := (Draft.isSome_complete?_first inside (empty ▸ binds)).1 (complete ▸ rfl)
    simp [firstAnswer, Nat.not_lt.2 single, room, enrol, note, withdraw]

/-! ## What each way out leaves behind -/

theorem eq_of_stale {r' : Registry}
    (answered : r.register endpoint token hello now = (.ok .stale, r')) : r' = r := by
  have exits := r.exits_register endpoint token hello now
  rw [answered] at exits
  cases exits with
  | stale => rfl

/-- The hello comes from the endpoint of a live connection. -/
theorem eq_note_of_known {result : Except RegistrationError RegistrationOutcome} {r' : Registry}
    (answered : r.register endpoint token hello now = (result, r'))
    (known : (∃ id, result = .ok (.duplicate id)) ∨ ∃ e, result = .error e ∧ ¬ e.OfChannel) :
    r' = r.note endpoint token := by
  have exits := r.exits_register endpoint token hello now
  rw [answered] at exits
  cases exits with
  | duplicate | inUse => rfl
  | stale | rejected | waits | completes => simp at known
  | taken _ _ c => simp [ofChannel_takenChannel] at known
  | violates _ _ _ e unbound => simp [Draft.ofChannel_of_bind unbound] at known

theorem bystanding_of_failed {result : Except RegistrationError RegistrationOutcome} {r' : Registry}
    (answered : r.register endpoint token hello now = (result, r'))
    (failed : result = .ok .pending ∨ (∃ reason, result = .ok (.rejected reason)) ∨
      ∃ e, result = .error e ∧ e.OfChannel) : r.Bystanding r' endpoint token hello.nonce := by
  have erased (n : Nonce) (other : n ≠ hello.nonce) : (r.pending.erase hello.nonce).find? n =
      r.pending.find? n := by
    rw [Table.find?_erase, if_neg (Ne.symm other)]
  have bound_own {bound : Draft}
      (binds : (r.draftFor hello now).bind hello.channel endpoint = .ok bound) :
      ∀ e ∈ bound.endpoints, e = endpoint ∨ e ∈ r.drafted hello.nonce := by
    intro e has
    rw [← endpoints_draftFor r hello now]
    exact ((Draft.mem_endpoints_of_bind binds).1 has).symm
  have exits := r.exits_register endpoint token hello now
  rw [answered] at exits
  cases exits with
  | stale | duplicate => simp at failed
  | inUse => simp [RegistrationError.OfChannel] at failed
  | taken =>
    exact bystanding_release r.pending [endpoint] (fun _ _ => rfl) fun e mem =>
      .inl (List.mem_singleton.1 mem)
  | violates =>
    refine bystanding_release _ ((r.draftFor hello now).endpoints ++ [endpoint]) erased
      fun e mem => ?_
    rw [endpoints_draftFor] at mem
    exact (List.mem_append.1 mem).symm.imp_left List.mem_singleton.1
  | rejected _ _ _ bound binds => exact bystanding_release _ _ erased (bound_own binds)
  | waits _ _ _ _ bound binds =>
    refine bystanding_release _ [] (fun n other => ?_) nofun
    rw [Table.find?_insert, if_neg (Ne.symm other)]
    exact erased n other
  | completes => simp at failed

/-- A hello that is refused, or that violates the draft of its nonce, takes the draft with it. -/
theorem forget_of_refused {result : Except RegistrationError RegistrationOutcome} {r' : Registry}
    (answered : r.register endpoint token hello now = (result, r'))
    (refused : (∃ reason, result = .ok (.rejected reason)) ∨
      (∃ e, result = .error e ∧ e.OfChannel) ∧ r.connectionOf? hello.nonce = none) :
    r'.pending.find? hello.nonce = none ∧ r'.connectionOf? hello.nonce = none ∧
      (r.Unshared endpoint hello.nonce → r' = r.forget endpoint hello.nonce) := by
  have gone (endpoints : List Address) :
      (((r.note endpoint token).withdraw hello).releaseTokens endpoints).pending.find? hello.nonce =
      none := by
    rw [releaseTokens_eq, withdraw, Table.find?_erase, if_pos rfl]
  have still (new : r.connectionOf? hello.nonce = none) (endpoints : List Address) :
      (((r.note endpoint token).withdraw hello).releaseTokens endpoints).connectionOf? hello.nonce =
      none := by
    rw [releaseTokens_eq]
    exact new
  have exits := r.exits_register endpoint token hello now
  rw [answered] at exits
  cases exits with
  | stale | duplicate | waits => simp at refused
  | inUse => simp [RegistrationError.OfChannel] at refused
  | taken _ _ c live => simp [live] at refused
  | violates _ _ new =>
    refine ⟨gone _, still new _, fun unshared => release_of_unshared unshared fun e => ?_⟩
    rw [endpoints_draftFor, List.mem_append, List.mem_singleton, List.mem_cons, or_comm]
  | rejected _ _ new bound binds =>
    refine ⟨gone _, still new _, fun unshared => release_of_unshared unshared fun e => ?_⟩
    rw [Draft.mem_endpoints_of_bind binds, endpoints_draftFor, List.mem_cons, or_comm]
  | completes => simp at refused

end

end Registry

namespace Lobby

/-- A hello that completes nothing is a matter of the registry alone. -/
theorem register_of_not_completed (l : Lobby) (endpoint : Address) (token : OrderNumber)
    (hello : Hello) (now : Instant)
    (other : ∀ id, (l.registry.register endpoint token hello now).1 ≠ .ok (.completed id)) :
    l.register endpoint token hello now = ((l.registry.register endpoint token hello now).1,
      { l with registry := (l.registry.register endpoint token hello now).2 }) := by
  unfold register
  dsimp only
  split
  case h_1 id completed => exact absurd completed (other id)
  case h_2 => rfl

/-- Whatever the tables hold: a stale hello changes nothing, and one from the endpoint of a live
connection nothing but the token of that endpoint.  A hello that waits, is refused or does not fit
its channel is heard of by nobody, and everyone else stands by.  One that is refused or violates its
draft leaves no draft; and if nobody else has the endpoints, all that is gone is the draft and the
tokens of the endpoints, any of which can then start again with any token, under that nonce or
another new one. -/
theorem failed_hello_contained (l : Lobby) (endpoint : Address) (token : OrderNumber)
    (hello : Hello) (now : Instant) :
    let r := l.registry
    let result := (l.register endpoint token hello now).1
    let l' := (l.register endpoint token hello now).2
    (result = .ok .stale → l' = l) ∧
    ((∃ id, result = .ok (.duplicate id)) ∨ (∃ e, result = .error (.endpointInUse e)) →
      l' = { l with registry := { r with tokens := r.tokens.insert endpoint token } }) ∧
    (result = .ok .pending ∨ (∃ reason, result = .ok (.rejected reason)) ∨
      (∃ e, result = .error e ∧ e.OfChannel) →
      l' = { l with registry := l'.registry } ∧
        r.Bystanding l'.registry endpoint token hello.nonce) ∧
    ((∃ reason, result = .ok (.rejected reason)) ∨
        (∃ e, result = .error e ∧ e.OfChannel) ∧ r.connectionOf? hello.nonce = none →
      l'.registry.pending.find? hello.nonce = none ∧ l'.registry.connectionOf? hello.nonce = none ∧
      (r.Unshared endpoint hello.nonce →
        l'.registry = { r with
          pending := r.pending.erase hello.nonce
          tokens := (endpoint :: r.drafted hello.nonce).foldl Table.erase r.tokens } ∧
        ∀ e ∈ endpoint :: r.drafted hello.nonce, ∀ (token : OrderNumber) (again : Hello)
          (later : Instant), l'.registry.pending.find? again.nonce = none →
          l'.registry.connectionOf? again.nonce = none →
          again.game = r.game → again.version = r.version → again.channel.toNat < max r.channels 1 →
          (l'.registry.register e token again later).1 = r.firstAnswer)) := by
  intro r result l'
  have same : result = (r.register endpoint token hello now).1 :=
    (l.register_alike endpoint token hello now).1
  -- in each of the cases nothing is completed, so that it is enough to look at the registry
  have alone (other : ∀ id, result ≠ .ok (.completed id)) :
      l' = { l with registry := l'.registry } ∧
      r.register endpoint token hello now = (result, l'.registry) := by
    have lobby := l.register_of_not_completed endpoint token hello now fun id => same ▸ other id
    have registry : l'.registry = (r.register endpoint token hello now).2 := by
      show (l.register endpoint token hello now).2.registry = _
      rw [lobby]
    refine ⟨?_, by rw [same, registry]⟩
    rw [registry]
    exact congrArg Prod.snd lobby
  refine ⟨fun stale => ?_, fun known => ?_, fun failed => ?_, fun refused => ?_⟩
  · obtain ⟨lobby, answered⟩ := alone (by simp [stale])
    have kept : l'.registry = r := Registry.eq_of_stale (by rw [answered, stale])
    rw [lobby, kept]
  · obtain ⟨lobby, answered⟩ := alone (by rintro id done; simp [done] at known)
    have note :=
      Registry.eq_note_of_known answered (known.imp_right fun ⟨e, inUse⟩ => ⟨_, inUse, not_false⟩)
    rw [lobby, note]
    rfl
  · obtain ⟨lobby, answered⟩ := alone (by rintro id done; simp [done] at failed)
    exact ⟨lobby, Registry.bystanding_of_failed answered failed⟩
  · obtain ⟨lobby, answered⟩ := alone (by rintro id done; simp [done] at refused)
    obtain ⟨gone, new, traceless⟩ := Registry.forget_of_refused answered refused
    refine ⟨gone, new, fun unshared => ?_⟩
    have forgotten : l'.registry = r.forget endpoint hello.nonce := traceless unshared
    refine ⟨forgotten, fun e own token again later undrafted unheard game version inside => ?_⟩
    rw [forgotten] at undrafted unheard ⊢
    exact Registry.register_of_traceless (Registry.traceless_forget unshared own unheard undrafted)
      token later ⟨game, version⟩ inside

/-- Two drafts share an endpoint, and one of them is violated: the other one keeps it, with its
token.  A third draft, all alone, is refused for its version: the endpoint that it had starts again
from token 0. -/
theorem failed_hello_contained_shared :
    let at_ (port : UInt16) : Address := ⟨.v4 2130706433, port⟩
    let l := (opened "courier" 1 2 32 [.peers, .events]).after [
      .hello (at_ 5000) 0 ⟨1, 0, "courier", 1⟩ 0,
      .hello (at_ 5000) 1 ⟨2, 0, "courier", 1⟩ 0,
      .hello (at_ 5002) 9 ⟨3, 1, "courier", 1⟩ 0]
    let violated := l.register (at_ 5001) 4 ⟨2, 7, "courier", 1⟩ 0
    let refused := l.register (at_ 5003) 4 ⟨3, 0, "courier", 2⟩ 0
    violated.1 = .error (.channelOutOfRange 7 2) ∧
      l.registry.Bystanding violated.2.registry (at_ 5001) 4 2 ∧
      violated.2.registry.pending.keys = [1, 3] ∧
      violated.2.registry.tokens.find? (at_ 5000) = some 1 ∧
      (refused.2.registry.register (at_ 5002) 0 ⟨4, 1, "courier", 1⟩ 0).1 = .ok .pending := by
  intro at_ l violated refused
  have out : violated.1 = .error (.channelOutOfRange 7 2) := by decide +kernel
  have drafts : violated.2.registry.pending.keys = [1, 3] := by decide +kernel
  have known : violated.2.registry.holds (at_ 5000) = true := by decide +kernel
  have token : l.registry.tokens.find? (at_ 5000) = some 1 := by decide +kernel
  have mismatch : refused.1 = .ok (.rejected (l.registry.mismatch ⟨3, 0, "courier", 2⟩)) := by
    decide +kernel
  have own : at_ 5002 ∈ at_ 5003 :: l.registry.drafted 3 := by decide +kernel
  have others : ∀ e ∈ at_ 5003 :: l.registry.drafted 3, l.registry.byEndpoint.find? e = none ∧
      e ∉ (l.registry.pending.keys.filter (· ≠ 3)).flatMap l.registry.drafted := by decide +kernel
  have strange : refused.2.registry.pending.find? 4 = none ∧
      refused.2.registry.connectionOf? 4 = none := by
    decide +kernel
  have settings : l.registry.settings = ("courier", 1, 2, 32) := by decide +kernel
  have differs : at_ 5000 ≠ at_ 5001 := by decide
  clear_value l at_
  have stands := (failed_hello_contained l (at_ 5001) 4 ⟨2, 7, "courier", 1⟩ 0).2.2.1
    (.inr (.inr ⟨_, out, trivial⟩))
  have left :=
    (failed_hello_contained l (at_ 5003) 4 ⟨3, 0, "courier", 2⟩ 0).2.2.2 (.inl ⟨_, mismatch⟩)
  have alone : l.registry.Unshared (at_ 5003) 3 := by
    intro e mem
    obtain ⟨nowhere, foreign⟩ := others e mem
    refine ⟨nowhere, fun n d other waits has =>
      foreign (List.mem_flatMap.2 ⟨n, List.mem_filter.2 ⟨?_, ?_⟩, ?_⟩)⟩
    · exact Table.mem_keys_iff.2 (by rw [waits]; rfl)
    · exact decide_eq_true other
    · rw [Registry.drafted, waits]
      exact has
  obtain ⟨game, version, channels, _⟩ : l.registry.game = "courier" ∧ l.registry.version = 1 ∧
      l.registry.channels = 2 ∧ l.registry.maxClients = 32 := by
    simpa [Registry.settings] using settings
  refine ⟨out, stands.2, drafts, ?_, ?_⟩
  · rw [stands.2.tokens _ (Registry.holds_iff.1 known), if_neg differs, token]
  · have again := (left.2.2 alone).2 (at_ 5002) own 0 ⟨4, 1, "courier", 1⟩ 0 strange.1 strange.2
      game.symm version.symm
    rw [channels] at again
    rw [again (by decide), Registry.firstAnswer, channels]
    rfl

end Lobby

end DatagramSession
