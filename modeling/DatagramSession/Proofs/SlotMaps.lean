import DatagramSession.Peers
import Mathlib.Data.List.Nodup
/-!
# Maps of slots

What an operation on many peers does to the slot of one of them.
-/
namespace DatagramSession

namespace PeerSlot

theorem isSome_enqueue (c : Command) (slot : PeerSlot) :
    (slot.enqueue c).2.isSome = slot.isSome := by
  unfold enqueue
  split
  · exact Option.isSome_map
  · rfl

theorem isSome_heed (c : Command) (slot : PeerSlot) : (slot.heed c).isSome = slot.isSome := by
  unfold heed
  split
  · cases slot <;> rfl
  · rfl

theorem isSome_flush (slot : PeerSlot) : slot.flush.2.isSome = slot.isSome := by
  cases slot <;> rfl

theorem isSome_keepAlive (slot : PeerSlot) : slot.keepAlive.2.isSome = slot.isSome :=
  Option.isSome_map

end PeerSlot

namespace PeerMap

variable {κ : Type} [DecidableEq κ]

theorem find?_atPeer {α : Type} (peers : PeerMap κ) (peer k : κ) (f : PeerSlot → α × PeerSlot) :
    (peers.atPeer peer f).2.find? k = if peer = k then (f (peers.find? k)).2 else
      peers.find? k := by
  rw [atPeer, Table.find?_set]
  split
  case isTrue same => rw [same]
  case isFalse => rfl

/-- Each of the peers is queued the command once. -/
theorem find?_enqueueAll {keys : List κ} (unique : keys.Nodup) (c : Command) (peers : PeerMap κ)
    (k : κ) :
    (enqueueAll c keys peers).2.find? k =
      if k ∈ keys then (PeerSlot.enqueue c (peers.find? k)).2 else peers.find? k := by
  induction keys generalizing peers with
  | nil => rfl
  | cons peer rest ih =>
    obtain ⟨new, unique⟩ := List.nodup_cons.1 unique
    have here : (peers.enqueue peer c).2.find? k =
        if peer = k then (PeerSlot.enqueue c (peers.find? k)).2 else peers.find? k :=
      find?_atPeer peers peer k _
    simp only [enqueueAll, ih unique, here]
    by_cases same : peer = k
    · subst same
      simp [new]
    · simp [same, Ne.symm same]

theorem find?_flushEach {keys : List κ} (once : keys.Nodup) (peers : PeerMap κ) (k : κ) :
    (flushEach keys peers).2.find? k = if k ∈ keys then (PeerSlot.flush (peers.find? k)).2 else
      peers.find? k := by
  induction keys generalizing peers with
  | nil => rfl
  | cons peer rest ih =>
    obtain ⟨absent, once⟩ := List.nodup_cons.1 once
    have here : (peers.flush peer).2.find? k =
        if peer = k then (PeerSlot.flush (peers.find? k)).2 else peers.find? k :=
      find?_atPeer peers peer k _
    simp only [flushEach, ih once, here]
    by_cases same : peer = k
    · subst same
      simp [absent]
    · simp [same, Ne.symm same]

/-- Peers that are visited once each give what is due from their own slots, in the order of the
visits. -/
theorem flushEach_eq {keys : List κ} (once : keys.Nodup) (peers : PeerMap κ) :
    (flushEach keys peers).1 = keys.flatMap fun k =>
      ((PeerSlot.flush (peers.find? k)).1.map (k, ·)).toList := by
  induction keys generalizing peers with
  | nil => rfl
  | cons peer rest ih =>
    obtain ⟨absent, once⟩ := List.nodup_cons.1 once
    simp only [flushEach, ih once, List.flatMap_cons]
    refine congrArg (_ ++ ·) (List.flatMap_congr fun k mem => ?_)
    have other : peer ≠ k := fun same => absent (same ▸ mem)
    rw [flush, find?_atPeer, if_neg other]

/-- Peers that are visited once each give the envelopes of their own slots. -/
theorem flushEach_filter {keys : List κ} (once : keys.Nodup) (peers : PeerMap κ) (k : κ) :
    ((flushEach keys peers).1.filter (·.1 = k)).map Prod.snd =
      if k ∈ keys then (PeerSlot.flush (peers.find? k)).1.toList else [] := by
  induction keys generalizing peers with
  | nil => rfl
  | cons peer rest ih =>
    obtain ⟨absent, once⟩ := List.nodup_cons.1 once
    have later := ih once (peers.flush peer).2
    simp only [flushEach, List.filter_append, List.map_append, later, List.mem_cons]
    by_cases same : peer = k
    · subst same
      simp only [absent, if_false, List.append_nil, true_or, if_true]
      cases due : (peers.flush peer).1 with
      | none => simpa [flush, atPeer] using congrArg Option.toList due.symm
      | some e => simpa [flush, atPeer] using congrArg Option.toList due.symm
    · have kept : (peers.flush peer).2.find? k = peers.find? k := by
        rw [flush, find?_atPeer, if_neg same]
      rw [kept]
      cases (peers.flush peer).1 <;> simp [same, Ne.symm same]

/-- An operation on one peer's slot that neither fills nor empties it leaves the set of peers
alone. -/
theorem isSome_atPeer {α : Type} {peers : PeerMap κ} {peer : κ} {f : PeerSlot → α × PeerSlot}
    (kept : ∀ slot, (f slot).2.isSome = slot.isSome) (k : κ) :
    ((peers.atPeer peer f).2.find? k).isSome = (peers.find? k).isSome := by
  rw [find?_atPeer]
  split
  · exact kept _
  · rfl

theorem add_of_present {peers : PeerMap κ} {peer : κ} {o : Outbound}
    (found : peers.find? peer = some o) :
    peers.add peer = (false, peers) := by
  simp [add, Table.contains, found]

theorem add_of_absent {peers : PeerMap κ} {peer : κ} (absent : peers.find? peer = none) :
    peers.add peer = (true, peers.insert peer {}) := by
  simp [add, Table.contains, absent]

theorem isSome_add (peers : PeerMap κ) (peer k : κ) :
    ((peers.add peer).2.find? k).isSome = (decide (peer = k) || (peers.find? k).isSome) := by
  cases found : peers.find? peer with
  | some o =>
    rw [add_of_present found]
    by_cases same : peer = k
    · simp [← same, found]
    · simp [same]
  | none =>
    rw [add_of_absent found, Table.find?_insert]
    split
    case isTrue same => simp [same]
    case isFalse other => simp [other]

theorem isSome_enqueue (peers : PeerMap κ) (peer : κ) (c : Command) (k : κ) :
    ((peers.enqueue peer c).2.find? k).isSome = (peers.find? k).isSome :=
  isSome_atPeer (PeerSlot.isSome_enqueue c) k

theorem isSome_enqueueAll (c : Command) (keys : List κ) (peers : PeerMap κ) (k : κ) :
    ((enqueueAll c keys peers).2.find? k).isSome = (peers.find? k).isSome := by
  induction keys generalizing peers with
  | nil => rfl
  | cons peer rest ih => exact (ih _).trans (isSome_enqueue peers peer c k)

/-- A command that fits is taken by those of the peers that are there. -/
theorem enqueueAll_fst {c : Command} (fits : c.payload.length ≤ maxPayloadSize) (keys : List κ)
    (peers : PeerMap κ) :
    (enqueueAll c keys peers).1 = keys.countP fun k => (peers.find? k).isSome := by
  induction keys generalizing peers with
  | nil => rfl
  | cons peer rest ih =>
    have taken : (peers.enqueue peer c).1 = (peers.find? peer).isSome := by
      simp [enqueue, atPeer, PeerSlot.enqueue, fits]
    simp only [enqueueAll, ih, taken, isSome_enqueue, List.countP_cons]
    omega

/-- A command that could never be sent is not queued for anybody. -/
theorem enqueueAll_of_large {c : Command} (large : ¬ c.payload.length ≤ maxPayloadSize)
    (keys : List κ) (peers : PeerMap κ) : enqueueAll c keys peers = (0, peers) := by
  induction keys with
  | nil => rfl
  | cons peer rest ih =>
    have refused : peers.enqueue peer c = (false, peers) := by
      simp [enqueue, atPeer, PeerSlot.enqueue, large, Table.set_find?]
    simp [enqueueAll, refused, ih]

theorem isSome_heed (peers : PeerMap κ) (peer : κ) (c : Command) (k : κ) :
    ((peers.heed peer c).find? k).isSome = (peers.find? k).isSome :=
  isSome_atPeer (PeerSlot.isSome_heed c) k

theorem isSome_keepAlive (peers : PeerMap κ) (peer k : κ) :
    ((peers.keepAlive peer).2.find? k).isSome = (peers.find? k).isSome :=
  isSome_atPeer PeerSlot.isSome_keepAlive k

theorem isSome_flushEach (keys : List κ) (peers : PeerMap κ) (k : κ) :
    ((flushEach keys peers).2.find? k).isSome = (peers.find? k).isSome := by
  induction keys generalizing peers with
  | nil => rfl
  | cons peer rest ih => exact (ih _).trans (isSome_atPeer PeerSlot.isSome_flush k)

end PeerMap
end DatagramSession
