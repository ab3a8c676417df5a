import DatagramSession.Proofs.Oversized
import DatagramSession.Proofs.Sessions
/-!
# What waits for a peer

The guaranteed commands that a peer has not confirmed are those of its history and those that wait
for the next flush.  A flush moves them and adds none (`Server.drained_flushIn`).  What is queued
otherwise goes to the end of the waiting ones (`PeerSlot.queued`), and a sending has it on record as
pushed (`Sending.Does.pushed_of_fits`).
-/
namespace DatagramSession

namespace Outbound

/-- The guaranteed commands that are not confirmed, oldest first. -/
def pending (o : Outbound) : List Command :=
  o.history.flatMap Batch.commands ++ o.guaranteed

theorem pending_flush (o : Outbound) :
    o.flush.2.pending = o.pending ∧ o.flush.2.guaranteed.length ≤ o.guaranteed.length := by
  cases due : o.isDue with
  | false =>
    rw [flush_of_not_isDue due]
    exact ⟨rfl, Nat.le_refl _⟩
  | true =>
    rw [flush_of_isDue due]
    refine ⟨?_, Nat.zero_le _⟩
    unfold pending flushed extendedHistory
    split
    case isTrue none => simp [List.isEmpty_iff.1 none]
    case isFalse => simp

end Outbound

namespace Sending

variable {heard : Option Envelope} {s s' : Sending}

/-- What was pushed was released or is pending. -/
theorem Sound.pushed_eq (h : s.Sound) :
    s.pushed = s.released.flatMap Batch.commands ++ s.outbound.pending := by
  have formed : s.formed.flatMap Formed.commands =
      (s.formed.map Formed.batch).flatMap Batch.commands := by
    rw [List.flatMap_map]
    rfl
  rw [← h.conserved, formed, ← h.parted, List.flatMap_append, List.append_assoc]
  rfl

/-- Only a confirmation releases anything. -/
theorem Does.released (does : Does none s s') : s'.released = s.released := by
  induction does with
  | rest => rfl
  | push | keepAlive => assumption
  | @flush s' _ ih =>
    rw [← ih]
    by_cases due : s'.outbound.isDue
    · rw [flush_of_isDue due]
    · rw [flush_of_not_isDue (by simpa using due)]
  | acknowledge taken | confirm taken => cases taken

theorem Does.mail_le (does : Does heard s s') : s.mail.length ≤ s'.mail.length := by
  induction does with
  | rest => exact Nat.le_refl _
  | push | keepAlive | acknowledge | confirm => assumption
  | flush _ ih => exact Nat.le_trans ih (mail_length_flush _).1

/-- Without a new envelope, what was pushed waits at the end. -/
theorem Does.pushed (does : Does heard s s') (quiet : s'.mail.length = s.mail.length) :
    ∃ more, s'.outbound.guaranteed = s.outbound.guaranteed ++ more ∧
    s'.pushed = s.pushed ++ more := by
  induction does with
  | rest => exact ⟨[], (List.append_nil _).symm, (List.append_nil _).symm⟩
  | @push s' c _ _ ih =>
    obtain ⟨more, guaranteed, pushed⟩ := ih quiet
    by_cases own : c.isGuaranteed
    · exact ⟨more ++ [c], by simp [Sending.push, Outbound.push, own, guaranteed],
        by simp [Sending.push, own, pushed]⟩
    · exact ⟨more, by simp [Sending.push, Outbound.push, own, guaranteed],
        by simp [Sending.push, own, pushed]⟩
  | keepAlive _ ih => exact ih quiet
  | @flush s' before ih =>
    have still : s'.mail.length = s.mail.length :=
      Nat.le_antisymm (quiet ▸ (mail_length_flush s').1) before.mail_le
    have idle : s'.outbound.isDue = false := by
      by_contra due
      rw [flush_of_isDue (by simpa using due), List.length_append, still] at quiet
      simp at quiet
    rw [flush_of_not_isDue idle]
    exact ih still
  | acknowledge _ _ ih => exact ih quiet
  | confirm _ _ _ _ ih => exact ih quiet

end Sending

namespace PeerSlot

/-- The guaranteed commands that were queued while a slot became another one. -/
def queued (slot slot' : PeerSlot) : List Command :=
  match slot' with
  | none => []
  | some o' => o'.guaranteed.drop (slot.elim 0 (·.guaranteed.length))

/-- Envelopes may have been taken, but nothing was queued. -/
def Drained (slot slot' : PeerSlot) : Prop :=
  ∀ o', slot' = some o' → ∃ o,
    slot = some o ∧ o'.pending = o.pending ∧ o'.guaranteed.length ≤ o.guaranteed.length

section
variable {slot slot' slot'' : PeerSlot}

theorem drained_refl (slot : PeerSlot) : Drained slot slot :=
  fun o present => ⟨o, present, rfl, Nat.le_refl _⟩

theorem drained_none (slot : PeerSlot) : Drained slot none :=
  nofun

theorem Drained.trans (first : Drained slot slot') (second : Drained slot' slot'') :
    Drained slot slot'' := by
  intro o'' present
  obtain ⟨o', between, same', fewer'⟩ := second o'' present
  obtain ⟨o, before, same, fewer⟩ := first o' between
  exact ⟨o, before, same'.trans same, Nat.le_trans fewer' fewer⟩

theorem drained_keepAlive (slot : PeerSlot) : Drained slot slot.keepAlive.2 := by
  intro o' present
  obtain ⟨o, before, rfl⟩ := Option.map_eq_some_iff.1 present
  exact ⟨o, before, rfl, Nat.le_refl _⟩

theorem drained_flush (slot : PeerSlot) : Drained slot slot.flush.2 := by
  intro o' present
  cases slot with
  | none => cases present
  | some o =>
    cases present
    exact ⟨o, rfl, o.pending_flush⟩

theorem Drained.queued (drained : Drained slot slot') : PeerSlot.queued slot slot' = [] := by
  unfold PeerSlot.queued
  split
  · rfl
  case h_2 o' =>
    obtain ⟨o, rfl, _, fewer⟩ := drained o' rfl
    exact List.drop_eq_nil_of_le fewer

end

end PeerSlot

/-- What a sending has on record as pushed is what was queued in the slot. -/
theorem Sending.Does.pushed_of_fits {heard : Option Envelope} {s s' : Sending}
    (does : Does heard s s') (sound : s.Sound) {o o' : Outbound} (before : s.outbound = o)
    (after : s'.outbound = o')
    (quiet : s'.mail.length = s.mail.length ∨ heard = none ∧ PeerSlot.Drained (some o) (some o')) :
    s'.pushed = s.pushed ++ PeerSlot.queued (some o) (some o') := by
  subst before after
  rcases quiet with quiet | ⟨rfl, drained⟩
  · obtain ⟨more, guaranteed, pushed⟩ := does.pushed quiet
    rw [pushed, PeerSlot.queued, guaranteed]
    simp
  · obtain ⟨_, ⟨⟩, same, _⟩ := drained _ rfl
    rw [drained.queued, List.append_nil, (does.sound sound).pushed_eq, sound.pushed_eq,
      does.released, same]

/-- Whatever becomes of the slot, some continuation of the record goes with it, and has on record
what was queued. -/
theorem Half.Tally.queues {t : Half} {heard : Option Envelope} {slot slot' : PeerSlot}
    {inbound? : Option Inbound} {sent built : List Envelope} {handed : List Command}
    (h : t.Tally slot inbound? sent handed) (moves : PeerSlot.Moves heard built slot slot')
    (quiet : built = [] ∨ heard = none ∧ PeerSlot.Drained slot slot') :
    ∃ s, Sending.Does heard t.sending s ∧ (slot = none → s = t.sending) ∧
      Half.Tally ⟨s, t.receiving⟩ slot' inbound? (sent ++ built) handed ∧
      (slot'.isSome = true → s.pushed = t.sending.pushed ++ PeerSlot.queued slot slot') := by
  obtain ⟨s, does, still, tally⟩ := h.moves moves
  refine ⟨s, does, still, tally, fun present => ?_⟩
  obtain ⟨o', rfl⟩ := Option.isSome_iff_exists.1 present
  cases slot with
  | none => cases (moves.absent rfl).1
  | some o =>
    apply does.pushed_of_fits h.sound (h.fits o rfl) (tally.fits o' rfl)
    refine quiet.imp_left fun none => ?_
    rw [tally.length, h.length, none, List.append_nil]

namespace Server

variable {k : ConnectionId}

theorem drained_close (s : Server) (id : ConnectionId) (reason : DisconnectReason) :
    PeerSlot.Drained (s.lobby.peers.find? k) ((s.close id reason).2.lobby.peers.find? k) := by
  have told (l : Lobby) (c : Connection) :
      PeerSlot.Drained (l.peers.find? k) ((l.farewell c reason).peers.find? k) := by
    refine List.foldlRecOn l.watchers _
      (motive := fun l' : Lobby => PeerSlot.Drained (l.peers.find? k) (l'.peers.find? k))
      (PeerSlot.drained_refl _) ?_
    intro l' drained watcher _
    cases watcher with
    | peers =>
      simp only [Lobby.farewellTo, PeerMap.remove, Table.find?_erase]
      split
      · exact PeerSlot.drained_none _
      · exact drained
    | events | greeter | record => exact drained
  show PeerSlot.Drained _ ((s.lobby.close id reason).2.peers.find? k)
  unfold Lobby.close
  split
  case h_1 c registry _ => exact told { s.lobby with registry } c
  case h_2 => exact PeerSlot.drained_refl _

theorem peers_sayGoodbye (s : Server) (id : ConnectionId) :
    (s.sayGoodbye id).lobby.peers = s.lobby.peers := by
  unfold sayGoodbye
  split <;> rfl

theorem drained_sendEnvelope (acc : Nat × Server) (mail : ConnectionId × Envelope) :
    PeerSlot.Drained (acc.2.lobby.peers.find? k)
      ((sendEnvelope acc mail).2.lobby.peers.find? k) := by
  obtain ⟨count, s⟩ := acc
  unfold sendEnvelope
  dsimp only
  split
  case h_1 => exact PeerSlot.drained_refl _
  case h_2 c _ =>
    have kept : (s.sendTo c (.envelope mail.2)).2.lobby.peers = s.lobby.peers := rfl
    split
    case h_1 n s' result =>
      rw [result] at kept
      exact kept ▸ PeerSlot.drained_refl _
    case h_2 size s' result =>
      rw [result] at kept
      have closed := (s'.sayGoodbye mail.1).drained_close (k := k) mail.1 .oversized
      rwa [peers_sayGoodbye, kept] at closed
    case h_3 error s' _ result =>
      rw [result] at kept
      exact kept ▸ PeerSlot.drained_refl _

/-- A flush queues nothing. -/
theorem drained_flushIn (s : Server) (connections peers : List ConnectionId) :
    PeerSlot.Drained (s.lobby.peers.find? k)
      ((s.flushIn connections peers).2.lobby.peers.find? k) := by
  have asked : PeerSlot.Drained (s.lobby.peers.find? k)
      ((connections.foldl keepAliveOne s).lobby.peers.find? k) := by
    rw [find?_foldl_keepAliveOne]
    split
    · exact PeerSlot.drained_keepAlive _
    · exact PeerSlot.drained_refl _
  have flushed (map : PeerMap ConnectionId) :
      PeerSlot.Drained (map.find? k) ((map.flushEach peers).2.find? k) := by
    induction peers generalizing map with
    | nil => exact PeerSlot.drained_refl _
    | cons peer rest ih =>
      have here : PeerSlot.Drained (map.find? k) ((map.flush peer).2.find? k) := by
        rw [PeerMap.flush, PeerMap.find?_atPeer]
        split
        · exact PeerSlot.drained_flush _
        · exact PeerSlot.drained_refl _
      exact here.trans (ih _)
  unfold flushIn
  refine List.foldlRecOn (s.builds connections peers) _ (motive := fun acc : Nat × Server =>
    PeerSlot.Drained (s.lobby.peers.find? k) (acc.2.lobby.peers.find? k))
      (asked.trans (flushed _)) ?_
  intro acc drained mail _
  exact drained.trans (drained_sendEnvelope acc mail)

end Server
end DatagramSession
