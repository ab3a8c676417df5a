import DatagramSession.Proofs.Introductions
/-!
# Connections with one endpoint

With a single channel the hello that opens a connection comes from the only endpoint of it.
`Registry.Housed` relates a registry to the list of connections that were opened, each with the
endpoint of that hello: an endpoint leads only to connections that were opened from there.  Whatever
happens to a server keeps it (`Server.Changes.housed`, `Server.Act.housed`, `Server.housed_route`),
also after ids have been given out again.
-/
namespace DatagramSession

namespace Registry

/-- There is one channel, and endpoints lead to connections that were opened from there. -/
structure Housed (opened : List (ConnectionId × Address)) (r : Registry) : Prop where
  keyed : r.Keyed
  single : r.channels = 1
  sized : r.Sized
  leads : ∀ e id, r.byEndpoint.find? e = some id → (id, e) ∈ opened

section
variable {opened : List (ConnectionId × Address)} {r r' : Registry}

theorem housed_empty (game : String) (version : UInt32) (maxClients : Nat) :
    (empty game version 1 maxClients).Housed [] :=
  ⟨nofun, rfl, ⟨Nat.le_refl 1, nofun⟩, nofun⟩

theorem Alike.housed (alike : Alike r r') (h : r.Housed opened) : r'.Housed opened := by
  constructor
  case keyed => exact alike.keyed h.keyed
  case single =>
    rw [alike.rest]
    exact h.single
  case sized =>
    rw [alike.rest]
    exact ⟨h.sized.channels, h.sized.drafts⟩
  case leads =>
    rw [alike.byEndpoint]
    exact h.leads

/-- What opens no connection. -/
theorem Effect.housed (effect : Effect r none r') (h : r.Housed opened) : r'.Housed opened := by
  obtain ⟨same, sized⟩ := effect.sized h.sized
  refine ⟨effect.keyed h.keyed, same.trans h.single, sized, fun e id found => ?_⟩
  cases effect with
  | kept => exact h.leads e id found
  | closed closedId =>
    cases live : r.connection? closedId with
    | none =>
      simp only [remove, live] at found
      exact h.leads e id found
    | some c =>
      rw [byEndpoint_remove r live] at found
      split at found
      · cases found
      · exact h.leads e id found

/-- A draft with one slot has no endpoint but the one that the last hello came from. -/
theorem eq_of_bind {d bound : Draft} (one : d.slots.length = 1) {channel : UInt8}
    {endpoint address : Address} {others : List Address}
    (binds : d.bind channel endpoint = .ok bound)
    (complete : bound.complete? = some (address, others)) : address = endpoint ∧ others = [] := by
  obtain ⟨length, own⟩ := Draft.bind_ok binds
  have few := bound.length_endpoints_le
  rw [length, one] at few
  rw [Draft.endpoints_of_complete? complete] at few own
  have alone : others = [] := by
    cases others with
    | nil => rfl
    | cons => simp at few
  subst alone
  exact ⟨(List.mem_singleton.1 own).symm, rfl⟩

/-- The hello that completes a connection. -/
theorem housed_register (h : r.Housed opened) {endpoint : Address} {token : OrderNumber}
    {hello : Hello} {now : Instant} {id : ConnectionId}
    (completed : (r.register endpoint token hello now).1 = .ok (.completed id)) :
    (r.register endpoint token hello now).2.Housed (opened ++ [(id, endpoint)]) := by
  have answers := r.answers_register endpoint token hello now
  generalize r.register endpoint token hello now = outcome at answers completed
  cases answers with
  | apart _ _ other | dropped _ _ other => exact absurd completed (other id)
  | waits => cases completed
  | completes bound tokens address others free new binds complete room =>
    cases completed
    obtain ⟨rfl, rfl⟩ := eq_of_bind ((h.sized.draftFor hello now).trans h.single) binds complete
    refine ⟨fun id c live => ?_, h.single, ⟨h.sized.channels, fun nonce d held => ?_⟩,
      fun e id found => ?_⟩
    · have fresh := connection?_enrol { r with pending := r.pending.erase hello.nonce, tokens }
        hello.nonce address [] now id
      split at fresh
      case isTrue same =>
        cases fresh.symm.trans live
        exact same
      case isFalse => exact h.keyed id c (fresh.symm.trans live)
    · exact h.sized.drafts nonce d (Table.find?_of_find?_erase held)
    · have leads := byEndpoint_enrol { r with pending := r.pending.erase hello.nonce, tokens }
        hello.nonce address [] now e
      rcases Decidable.em (e ∈ [address]) with own | other
      · rw [if_pos own] at leads
        cases leads.symm.trans found
        exact List.mem_append_right _
          (List.mem_singleton.2 (Prod.ext rfl (List.mem_singleton.1 own)))
      · rw [if_neg other] at leads
        exact List.mem_append_left _ (h.leads e id (leads.symm.trans found))

end

end Registry

namespace Server

section
variable {opened : List (ConnectionId × Address)} {s s' : Server}

theorem Change.housed (change : Change s s') (h : s.lobby.registry.Housed opened) :
    s'.lobby.registry.Housed opened := by
  cases change with
  | aside registry => exact registry ▸ h
  | note id f kept => exact (s.lobby.registry.alike_modify id fun c => (kept c).1).housed h
  | accept id order confirm => exact (s.lobby.registry.alike_modify id fun _ => by rfl).housed h
  | send => exact h
  | answer request opens =>
    have effect := s.lobby.effect_answer request
    rw [opens] at effect
    exact effect.housed h

theorem Changes.housed (changes : Changes s s') (h : s.lobby.registry.Housed opened) :
    s'.lobby.registry.Housed opened := by
  induction changes with
  | refl => exact h
  | tail _ change ih => exact change.housed ih

theorem Act.housed (act : Act s s') (h : s.lobby.registry.Housed opened) :
    s'.lobby.registry.Housed opened := by
  cases act with
  | tell id m => exact (s.lobby.registry.alike_modify id fun _ => by rfl).housed h
  | kick id reason => exact (s.lobby.registry.alike_modify id fun _ => by rfl).housed h
  | close id reason => exact (close_changes s id reason).housed h
  | shutdown => exact (shutdown_changes s).housed h
  | sweep order => exact (sweepIn_changes s order).housed h
  | enqueue | broadcast | addHandler | removeHandler | introduce | addWatcher | takeEvents
  | takeDeliveries | elapse
  | relink => exact h

/-- Whatever arrives, it opens one connection at most, from where it comes. -/
theorem housed_route (h : s.lobby.registry.Housed opened) (endpoint : Address)
    (bytes : List UInt8) : (s.route endpoint bytes).2.lobby.registry.Housed
      (opened ++ (Routed.registered? (s.route endpoint bytes).1).toList.map (·, endpoint)) := by
  cases registered : Routed.registered? (s.route endpoint bytes).1 with
  | none => simpa using (route_changes h.keyed endpoint bytes registered).housed h
  | some id =>
    obtain ⟨token, hello, completed, result⟩ := route_opens endpoint registered
    obtain ⟨same, alike⟩ := s.lobby.register_alike endpoint token hello s.now
    rw [result]
    exact alike.housed (Registry.housed_register h (same ▸ completed))

/-- A connection that takes what comes from an endpoint was opened from there. -/
theorem opened_of_takes (h : s.lobby.registry.Housed opened) {endpoint : Address}
    {e : Envelope} {id : ConnectionId} {fresh : List Command}
    (taken : s.takes endpoint e = some (id, fresh)) :
    (id, endpoint) ∈ opened := by
  unfold takes at taken
  split at taken
  case h_1 c found =>
    split at taken
    case isTrue =>
      cases taken
      obtain ⟨id, leads, live⟩ := Option.bind_eq_some_iff.1 found
      rw [h.keyed id c live]
      exact h.leads endpoint id leads
    case isFalse => cases taken
  case h_2 => cases taken

end

end Server
end DatagramSession
