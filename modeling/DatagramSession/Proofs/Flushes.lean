import DatagramSession.Proofs.Oversized
import DatagramSession.Proofs.Promptness
import DatagramSession.Proofs.Sweeps
/-!
# Flushes

A flush asks for envelopes to connections that were sent none for a while, takes the envelopes that
are due, and sends them.  What it sends to one connection, and what becomes of it, can be read off
the connection and its outbound state (`Server.posts`, `Server.afterFlush`), and this is what a
flush does to it after any others, whatever became of them (`Server.Flushing.next`).  Who is due is
said in terms of what is queued, of the history, and of the time at which an envelope last went out
(`Server.Serves`, `Server.flush_each`).
-/
namespace DatagramSession

open Wire (envelopeSize)

/-! ## One envelope for one connection -/

namespace Connection

/-- What is sent to a connection for which there is an envelope: the envelope, or a goodbye if it is
too large for a datagram. -/
def post (c : Connection) (e : Envelope) : Address × Packet :=
  if maxPacketSize < envelopeSize e then (c.address, .numbered (c.sequence + 1) .disconnect)
  else (c.address, .numbered c.sequence (.envelope e))

/-- The link takes an envelope. -/
def reaches (c : Connection) (e : Envelope) (t : Transport) : Bool :=
  (t.accepts? (c.address, .numbered c.sequence (.envelope e))).isSome

/-- What an envelope makes of its connection: it is closed if the envelope is too large; else a
sequence number is used up, and the time is noted if the envelope went out. -/
def afterEnvelope (c : Connection) (e : Envelope) (t : Transport) (now : Instant) :
    Option Connection :=
  if maxPacketSize < envelopeSize e then none
  else some { c with sequence := c.sequence + 1, lastSent := if c.reaches e t then now
    else c.lastSent }

end Connection

namespace Server

/-- A live connection, and the envelope that is due to it. -/
def mail? (s : Server) (k : ConnectionId) : Option (Connection × Envelope) :=
  (s.connection? k).bind fun c => (s.due k).map fun o => (c, o.envelope)

/-- What a flush sends to a connection, if anything. -/
def posts (s : Server) (k : ConnectionId) : List (Address × Packet) :=
  ((s.mail? k).map fun m => m.1.post m.2).toList

/-- The envelope for a connection goes out. -/
def reaches (s : Server) (k : ConnectionId) : Bool :=
  (s.mail? k).any fun m => m.1.reaches m.2 s.transport

/-- The envelope for a connection is too large to be sent. -/
def bursts (s : Server) (k : ConnectionId) : Bool :=
  (s.mail? k).any fun m => decide (maxPacketSize < envelopeSize m.2)

/-- What a flush makes of a connection. -/
def afterFlush (s : Server) (k : ConnectionId) : Option Connection :=
  (s.mail? k).elim (s.connection? k) fun m => m.1.afterEnvelope m.2 s.transport s.now

/-- The server once the envelopes of some peers have been sent, and how many of them went out.  The
outbound states have been flushed before. -/
structure Flushing (s : Server) (flushed : PeerMap ConnectionId) (done : List ConnectionId)
    (count : Nat) (s' : Server) : Prop where
  connection : ∀ k, s'.connection? k = if k ∈ done then s.afterFlush k else s.connection? k
  lobby : Lobby.Closing { s.lobby with peers := flushed } (done.filter s.bursts) .oversized s'.lobby
  server : s' = { s with lobby := s'.lobby, transport := s.transport.offer (done.flatMap s.posts) }
  count : count = done.countP s.reaches

section
variable {s s' : Server} {flushed : PeerMap ConnectionId} {done : List ConnectionId}
  {k : ConnectionId} {c : Connection} {e : Envelope} {count : Nat}

/-- One more peer has been served. -/
theorem Flushing.step (h : Flushing s flushed done count s') (k : ConnectionId) {l : Lobby}
    (connection : ∀ j, l.registry.connection? j = if k = j then s.afterFlush k
      else s'.connection? j)
    (lobby : Lobby.Closing { s.lobby with peers := flushed } ((done ++ [k]).filter s.bursts)
      .oversized l) :
    Flushing s flushed (done ++ [k]) (count + if s.reaches k then 1 else 0)
      { s' with lobby := l, transport := s'.transport.offer (s.posts k) } := by
  refine ⟨fun j => (connection j).trans ?_, lobby, ?_, ?_⟩
  · rw [h.connection]
    by_cases here : k = j
    · subst here
      simp
    · simp [here, Ne.symm here]
  · dsimp only
    rw [h.server]
    simp [Transport.offer_append]
  · rw [h.count, List.countP_append, List.countP_singleton]

theorem Flushing.skip (h : Flushing s flushed done count s') (none : s.mail? k = none)
    (same : s'.connection? k = s.connection? k) : Flushing s flushed (done ++ [k]) count s' := by
  have small : s.bursts k = false := by simp [bursts, none]
  have served := h.step k (l := s'.lobby)
    (fun j => by
      split
      case isTrue here => rw [← here, afterFlush, none]; exact same
      case isFalse => rfl)
    (by simpa [small] using h.lobby)
  simpa [reaches, posts, none, Transport.offer] using served

/-- An envelope that fits goes out or is refused. -/
theorem Flushing.post (h : Flushing s flushed done count s') (mail : s.mail? k = some (c, e))
    (own : c.id = k) (fits : envelopeSize e ≤ maxPacketSize) (live : s'.connection? k = some c) :
    Flushing s flushed (done ++ [k])
      (sendEnvelope (count, s') (k, e)).1 (sendEnvelope (count, s') (k, e)).2 := by
  have kept : Lobby.Closing { s.lobby with peers := flushed } ((done ++ [k]).filter s.bursts)
      .oversized s'.lobby := by
    have small : s.bursts k = false := by simp [bursts, mail, Nat.not_lt.2 fits]
    simpa [small] using h.lobby
  have posts : s.posts k = [(c.address, .numbered c.sequence (.envelope e))] := by
    simp [Server.posts, mail, Connection.post, Nat.not_lt.2 fits]
  have reaches : s.reaches k = c.reaches e s.transport := by simp [Server.reaches, mail]
  have after : s.afterFlush k = some { c with
      sequence := c.sequence + 1, lastSent := if c.reaches e s.transport then s.now
        else c.lastSent } := by
    simp [afterFlush, mail, Connection.afterEnvelope, Nat.not_lt.2 fits]
  have now : s'.now = s.now := by rw [h.server]
  have link : s'.transport.accepts? = s.transport.accepts? := by
    rw [h.server, Transport.accepts?_offer]
  obtain ⟨answered, sent⟩ := s'.sendTo_eq c (.envelope e)
  have unlarge (size : Nat) : (s'.sendTo c (.envelope e)).1 ≠ .error (.tooLarge size) :=
    s'.transport.send_of_fits c.address (p := .numbered c.sequence (.envelope e)) fits size
  rw [link] at answered
  change _ = c.reaches e s.transport at answered
  have numbered (j : ConnectionId) := connection?_modify s' c.id (fun c => c.nextSequence.2) j
  have noted := kept.modify c.id fun c => c.nextSequence.2
  unfold sendEnvelope
  simp only [live]
  generalize s'.sendTo c (.envelope e) = outcome at answered sent unlarge
  obtain ⟨answer, s''⟩ := outcome
  dsimp only at answered sent unlarge ⊢
  subst sent
  cases answer with
  | ok size =>
    have served := h.step k
      (l := (s'.lobby.modify c.id fun c => c.nextSequence.2).modify k (·.markSent s'.now))
      (fun j => by
        refine (connection?_modify
          { s' with lobby := s'.lobby.modify c.id fun c => c.nextSequence.2 } k _ j).trans ?_
        rw [numbered, own]
        split
        case isTrue here => subst here; rw [live, after, ← answered, now]; rfl
        case isFalse => rfl)
      (noted.modify k _)
    rw [reaches, ← answered, posts] at served
    exact served
  | error reason =>
    have served := h.step k (l := s'.lobby.modify c.id fun c => c.nextSequence.2)
      (fun j => by
        refine (numbered j).trans ?_
        rw [own]
        split
        case isTrue here => subst here; rw [live, after, ← answered]; rfl
        case isFalse => rfl)
      noted
    rw [reaches, ← answered, posts] at served
    cases reason with
    | tooLarge size => exact absurd rfl (unlarge size)
    | undecodable | linkDown => exact served

theorem mail?_eq_some : s.mail? k = some (c, e) ↔
    s.connection? k = some c ∧ ∃ o, s.due k = some o ∧ o.envelope = e := by
  simp only [mail?, Option.bind_eq_some_iff, Option.map_eq_some_iff, Prod.mk.injEq]
  constructor
  · rintro ⟨_, live, o, due, rfl, rfl⟩
    exact ⟨live, o, due, rfl⟩
  · rintro ⟨live, o, due, rfl⟩
    exact ⟨c, live, o, due, rfl, rfl⟩

/-- One that does not fit costs its connection, after a goodbye. -/
theorem Flushing.burst (h : Flushing s flushed done count s') (mail : s.mail? k = some (c, e))
    (own : c.id = k) (large : maxPacketSize < envelopeSize e) (live : s'.connection? k = some c) :
    Flushing s flushed (done ++ [k])
      (sendEnvelope (count, s') (k, e)).1 (sendEnvelope (count, s') (k, e)).2 := by
  subst own
  have lost : s.reaches c.id = false := by
    simp [reaches, mail, Connection.reaches,
      Transport.accepts?_of_large (p := .numbered c.sequence (.envelope e)) _ _ large]
  have gone : s.afterFlush c.id = none := by
    simp [afterFlush, mail, Connection.afterEnvelope, large]
  have posts : s.posts c.id = [(c.address, .numbered (c.sequence + 1) .disconnect)] := by
    simp [Server.posts, mail, Connection.post, large]
  have refused : (s'.sendTo c (.envelope e)).1 = .error (.tooLarge (envelopeSize e)) :=
    congrArg Prod.fst (s'.transport.send_of_large c.address
      (p := .numbered c.sequence (.envelope e)) large)
  have sent := (s'.sendTo_eq c (.envelope e)).2
  rw [s'.transport.offer_of_large c.address (p := .numbered c.sequence (.envelope e)) large] at sent
  unfold sendEnvelope
  simp only [live]
  generalize s'.sendTo c (.envelope e) = outcome at refused sent
  obtain ⟨answer, s₁⟩ := outcome
  dsimp only at refused sent
  subst refused
  dsimp only
  -- the goodbye goes out under the sequence number after that of the envelope
  have live₁ : s₁.connection? c.id = some c.nextSequence.2 := by
    rw [sent]
    exact (connection?_modify s' c.id (fun c => c.nextSequence.2) c.id).trans
      (by rw [if_pos rfl, live]; rfl)
  have bye : s₁.sayGoodbye c.id = (s₁.sendTo c.nextSequence.2 .disconnect).2 := by
    rw [sayGoodbye, live₁]
  rw [(s₁.sendTo_eq c.nextSequence.2 .disconnect).2] at bye
  have live₂ : (s₁.sayGoodbye c.id).connection? c.id = some c.nextSequence.2.nextSequence.2 := by
    rw [bye]
    exact (connection?_modify s₁ c.id (fun c => c.nextSequence.2) c.id).trans
      (by rw [if_pos rfl, live₁]; rfl)
  have noted : Lobby.Closing { s.lobby with peers := flushed } (done.filter s.bursts) .oversized
      (s₁.sayGoodbye c.id).lobby := by
    rw [bye, sent]
    exact (h.lobby.modify c.id _).modify c.id _
  have served := h.step c.id (l := ((s₁.sayGoodbye c.id).close c.id .oversized).2.lobby)
    (fun j => by
      refine (connection?_close _ _ _ j).trans ?_
      rw [gone]
      split
      case isTrue => rfl
      case isFalse other =>
        have kept (t : Server) (f : Connection → Connection) := connection?_modify t c.id f j
        simp only [other, if_false] at kept
        rw [bye]
        exact (kept s₁ _).trans (by rw [sent]; exact kept s' _))
    (by
      have bursts : s.bursts c.id = true := by simp [Server.bursts, mail, large]
      rw [List.filter_append, List.filter_singleton, bursts]
      exact noted.close live₂ rfl (mail?_eq_some.1 mail).1 rfl)
  rw [lost, posts] at served
  have result : ((s₁.sayGoodbye c.id).close c.id .oversized).2 = { s' with
      lobby := ((s₁.sayGoodbye c.id).close c.id .oversized).2.lobby
      transport := s'.transport.offer [(c.address, .numbered (c.sequence + 1) .disconnect)] } := by
    rw [bye, sent]
    rfl
  rw [result]
  exact served

/-- Whatever became of the others, a peer is served on its own. -/
theorem Flushing.next {acc : Nat × Server} (h : Flushing s flushed done acc.1 acc.2)
    (keyed : s.lobby.registry.Keyed) (new : k ∉ done) :
    Flushing s flushed (done ++ [k])
      (((s.due k).map fun o => (k, o.envelope)).toList.foldl sendEnvelope acc).1
        (((s.due k).map fun o => (k, o.envelope)).toList.foldl sendEnvelope acc).2 := by
  obtain ⟨count, s'⟩ := acc
  dsimp only at h
  have before : s'.connection? k = s.connection? k := (h.connection k).trans (if_neg new)
  cases due : s.due k with
  | none => exact h.skip (by simp [mail?, due]) before
  | some o =>
    cases live : s.connection? k with
    | none =>
      have unsent : sendEnvelope (count, s') (k, o.envelope) = (count, s') := by
        simp [sendEnvelope, before, live]
      simp only [Option.map_some, Option.toList_some, List.foldl_cons, List.foldl_nil, unsent]
      exact h.skip (by simp [mail?, live]) before
    | some c =>
      have mail : s.mail? k = some (c, o.envelope) := mail?_eq_some.2 ⟨live, o, due, rfl⟩
      by_cases large : maxPacketSize < envelopeSize o.envelope
      · exact h.burst mail (keyed k c live) large (before.trans live)
      · exact h.post mail (keyed k c live) (Nat.le_of_not_lt large) (before.trans live)

theorem flushing_foldl (keyed : s.lobby.registry.Keyed) (flushed : PeerMap ConnectionId)
    {peers : List ConnectionId} (once : peers.Nodup) :
    let acc := (peers.flatMap fun k => ((s.due k).map fun o => (k, o.envelope)).toList).foldl
      sendEnvelope (0, { s with lobby := { s.lobby with peers := flushed } })
    Flushing s flushed peers acc.1 acc.2 := by
  induction peers using List.reverseRecOn with
  | nil => exact ⟨fun _ => rfl, Lobby.closing_nil _ _, rfl, rfl⟩
  | append_singleton done k ih =>
    obtain ⟨before, -, differs⟩ := List.nodup_append.1 once
    dsimp only
    rw [List.flatMap_append, List.foldl_append, List.flatMap_singleton]
    exact (ih before).next keyed fun mem => differs k mem k (List.mem_singleton_self k) rfl

/-- What a flush does before it sends anything. -/
theorem flushIn_eq (s : Server) {connections peers : List ConnectionId}
    (visits : connections.Perm s.ids) (sends : peers.Perm s.lobby.peers.keys) :
    ∃ flushed : PeerMap ConnectionId,
      (∀ k, flushed.find? k = (s.due k).elim (s.lobby.peers.find? k) (some ·.flushed)) ∧
    s.flushIn connections peers =
      (peers.flatMap fun k => ((s.due k).map fun o => (k, o.envelope)).toList).foldl sendEnvelope
        (0, { s with lobby := { s.lobby with peers := flushed } }) := by
  have once : peers.Nodup := sends.nodup_iff.2 s.lobby.peers.unique
  have slot := s.flush_find?_foldl_keepAliveOne visits
  obtain ⟨map, asked⟩ := s.foldl_keepAliveOne_eq connections
  rw [asked] at slot
  dsimp only at slot
  refine ⟨(map.flushEach peers).2, fun k => ?_, ?_⟩
  · rw [PeerMap.find?_flushEach once]
    split
    case isTrue => rw [slot]
    case isFalse unvisited =>
      have absent : s.lobby.peers.find? k = none := by
        simpa [sends.mem_iff, Table.mem_keys_iff] using unvisited
      have gone := s.find?_foldl_keepAliveOne (k := k) connections
      rw [asked, absent] at gone
      rw [due_of_absent absent, absent]
      simpa using gone
  · unfold flushIn
    dsimp only
    rw [asked]
    dsimp only
    rw [PeerMap.flushEach_eq once]
    simp only [slot, Option.map_map]
    rfl

end

end Server

/-! ## What a flush does -/

/-- The peers and the live connections are the same. -/
theorem Lobby.Prompt.keys_perm {served : ConnectionId → Instant} {l : Lobby} (h : l.Prompt served) :
    l.peers.keys.Perm l.registry.ids := by
  refine (List.perm_ext_iff_of_nodup l.peers.unique l.registry.connections.unique).2 fun k => ?_
  show k ∈ l.peers.keys ↔ k ∈ l.registry.connections.keys
  rw [Table.mem_keys_iff, Table.mem_keys_iff, h.paired k]
  rfl

namespace Server

/-- What a flush has done, each connection on its own. -/
structure Flushed (served : ConnectionId → Instant) (s : Server) (peers : List ConnectionId)
    (count : Nat) (s' : Server) : Prop where
  /-- There is an envelope for the connections that something is queued for or has not been
  confirmed by, and for those that none went out to for half the timeout. -/
  mail : ∀ k c, s.connection? k = some c → ∃ o, s.lobby.peers.find? k = some o ∧ s.mail? k =
    if o.guaranteed ≠ [] ∨ o.unreliable ≠ [] ∨ o.history ≠ [] ∨
        s.config.livenessTimeout / 2 ≤ s.now - served k
    then some (c, o.envelope) else none
  /-- Each of them is sent one packet, a goodbye if the envelope is too large, and there are no
  other attempts. -/
  transport : s'.transport = s.transport.offer (peers.flatMap s.posts)
  connection : ∀ k, s'.connection? k = s.afterFlush k
  /-- The history that an envelope carries stays, whether or not it went out, unless the connection
  is closed. -/
  slot : ∀ k, s'.lobby.peers.find? k = (s.mail? k).elim (s.lobby.peers.find? k) fun m =>
    if maxPacketSize < envelopeSize m.2 then none
    else some { history := m.2.guaranteed, nextOrder := m.2.order + 1 }
  /-- So the next envelope carries all of it again. -/
  again : ∀ k c e, s.mail? k = some (c, e) → envelopeSize e ≤ maxPacketSize → e.guaranteed ≠ [] →
    ∃ o, s'.due k = some o ∧ o.envelope.guaranteed = e.guaranteed
  count : count = s.ids.countP s.reaches
  events : s'.lobby.events = s.lobby.events ++ (peers.filter s.bursts).flatMap fun k =>
    List.replicate (s.lobby.watchers.count .events) (.disconnected k .oversized)
  notices : s'.lobby.notices = s.lobby.notices ++ (peers.filter s.bursts).flatMap fun k =>
    List.replicate (s.lobby.watchers.count .record) (.removed k .oversized true)
  endpoint : ∀ e, s'.lobby.registry.byEndpoint.find? e =
    if e ∈ (s.ids.filter s.bursts).flatMap s.lobby.endpointsOf then none
    else s.lobby.registry.byEndpoint.find? e
  nonce : ∀ n, s'.lobby.registry.byNonce.find? n =
    if n ∈ (s.ids.filter s.bursts).filterMap s.lobby.nonceOf then none
    else s.lobby.registry.byNonce.find? n
  token : ∀ e, s'.lobby.registry.tokens.find? e =
    if e ∈ (s.ids.filter s.bursts).flatMap s.lobby.endpointsOf then none
    else s.lobby.registry.tokens.find? e
  /-- Nothing else is touched. -/
  rest : s' =
    { s with lobby := { s'.lobby with watchers := s.lobby.watchers }, transport := s'.transport }
  settings : s'.lobby.registry = { s.lobby.registry with
    connections := s'.lobby.registry.connections, byEndpoint := s'.lobby.registry.byEndpoint
    byNonce := s'.lobby.registry.byNonce, tokens := s'.lobby.registry.tokens }

section
variable {served : ConnectionId → Instant} {s s' : Server} {peers : List ConnectionId}
  {k : ConnectionId} {count : Nat}

/-- Who is due, in terms of what is queued and of the last envelope that went out. -/
theorem due_eq (h : s.lobby.Prompt served) {c : Connection} {o : Outbound}
    (live : s.connection? k = some c) (slot : s.lobby.peers.find? k = some o) : s.due k =
      if o.guaranteed ≠ [] ∨ o.unreliable ≠ [] ∨ o.history ≠ [] ∨
          s.config.livenessTimeout / 2 ≤ s.now - served k
      then some o else none := by
  have asked : o.asked = true ↔ o.guaranteed ≠ [] ∨ o.unreliable ≠ [] := h.candid k o slot
  have history : (!o.history.isEmpty) = true ↔ o.history ≠ [] := by simp
  have awake : s.wakes k = true ↔ s.config.livenessTimeout / 2 ≤ s.now - served k := by
    simp [wakes, live, Connection.isIdle, keepAliveInterval, h.sent k c live]
  have due : (o.isDue || s.wakes k) = true ↔ o.guaranteed ≠ [] ∨ o.unreliable ≠ [] ∨
      o.history ≠ [] ∨
      s.config.livenessTimeout / 2 ≤ s.now - served k := by
    rw [Bool.or_eq_true, Outbound.isDue, Bool.or_eq_true, asked, history, awake]
    simp only [or_assoc]
  simp only [Server.due, slot, Option.filter, due]

/-- The slot of a peer after a flush that closes the connections in `gone`. -/
theorem slot_after (h : s.lobby.Prompt served) (k : ConnectionId) :
    (if s.bursts k = true then none else (s.due k).elim (s.lobby.peers.find? k) (some ·.flushed)) =
      (s.mail? k).elim (s.lobby.peers.find? k) fun m =>
        if maxPacketSize < envelopeSize m.2 then none
        else some { history := m.2.guaranteed, nextOrder := m.2.order + 1 } := by
  unfold bursts mail?
  cases live : s.connection? k with
  | none =>
    have absent : s.lobby.peers.find? k = none := by
      rw [← Option.not_isSome_iff_eq_none, h.paired k, Option.not_isSome_iff_eq_none]
      exact live
    simp [due_of_absent absent]
  | some c =>
    cases due : s.due k with
    | none => simp
    | some o => simp [Outbound.flushed, Outbound.envelope]

/-- A flush serves each connection by itself if the peers, queues and times are in order. -/
theorem flushed_of_prompt (h : s.lobby.Prompt served) {connections : List ConnectionId}
    (visits : connections.Perm s.ids) (sends : peers.Perm s.lobby.peers.keys) :
    Flushed served s peers (s.flushIn connections peers).1 (s.flushIn connections peers).2 := by
  have each : peers.Perm s.ids := sends.trans h.keys_perm
  obtain ⟨flushed, slot, result⟩ := s.flushIn_eq visits sends
  have served := flushing_foldl h.keyed flushed (sends.nodup_iff.2 s.lobby.peers.unique)
  rw [result]
  generalize List.foldl _ _ _ = acc at served
  obtain ⟨count, s'⟩ := acc
  dsimp only at served ⊢
  have bursts := each.filter s.bursts
  have slot' (k : ConnectionId) : s'.lobby.peers.find? k =
      (s.mail? k).elim (s.lobby.peers.find? k) fun m =>
      if maxPacketSize < envelopeSize m.2 then none
      else some { history := m.2.guaranteed, nextOrder := m.2.order + 1 } := by
    have visited (bursts : s.bursts k = true) : k ∈ peers :=
      each.mem_iff.2 (mem_ids_iff.2 (Option.isSome_of_isSome_bind (Option.isSome_of_any bursts)))
    rw [← slot_after h k, served.lobby.find?_peers]
    simp only [h.listens, and_true, List.mem_filter, and_iff_right_of_imp visited, slot]
  constructor
  case mail =>
    intro k c live
    obtain ⟨o, found⟩ := Option.isSome_iff_exists.1 ((h.paired k).trans (Option.isSome_of_mem live))
    refine ⟨o, found, ?_⟩
    rw [mail?, live, due_eq h live found, Option.bind_some]
    split <;> rfl
  case transport => rw [served.server]
  case connection =>
    intro k
    rw [served.connection]
    split
    case isTrue => rfl
    case isFalse absent =>
      have gone : s.connection? k = none := by simpa [each.mem_iff, mem_ids_iff] using absent
      simp [afterFlush, mail?, gone]
  case slot => exact slot'
  case again =>
    intro k c e mail fits history
    refine ⟨{ history := e.guaranteed, nextOrder := e.order + 1 }, ?_, rfl⟩
    have kept := slot' k
    rw [mail, Option.elim_some, if_neg (Nat.not_lt.2 fits)] at kept
    simp [due, kept, Option.filter, Outbound.isDue, history]
  case count => rw [served.count, each.countP_eq]
  case events => rw [served.lobby.rest]
  case notices => rw [served.lobby.rest]
  case endpoint => exact served.lobby.find?_byEndpoint bursts
  case nonce => exact served.lobby.find?_byNonce bursts
  case token => exact served.lobby.find?_tokens bursts
  case rest => rw [served.server, served.lobby.rest]
  case settings => rw [served.lobby.registry]

/-- A connection that is left by a flush, with the time of the last envelope. -/
theorem eq_of_afterFlush (h : s.lobby.Prompt served) {c' : Connection}
    (left : s.afterFlush k = some c') :
    c'.id = k ∧ c'.lastSent = if s.reaches k then s.now else served k := by
  unfold afterFlush reaches at *
  cases mail : s.mail? k with
  | none =>
    rw [mail] at left
    exact ⟨h.keyed k c' left, h.sent k c' left⟩
  | some m =>
    obtain ⟨c, e⟩ := m
    have live := (mail?_eq_some.1 mail).1
    rw [mail, Option.elim_some, Connection.afterEnvelope] at left
    split at left
    case isTrue => cases left
    case isFalse =>
      cases left
      rw [← h.sent k c live]
      exact ⟨h.keyed k c live, rfl⟩

/-- A flush notes the time for the connections that it reaches. -/
theorem Flushed.prompt (flushed : Flushed served s peers count s') (h : s.lobby.Prompt served) :
    s'.lobby.Prompt fun k => if s.reaches k then s.now else served k := by
  have watchers : s'.lobby.watchers = s.lobby.watchers := by rw [flushed.rest]
  refine ⟨⟨fun k c left => ?_, fun k => ?_, fun k c left => ?_⟩, watchers ▸ h.listens, fun k => ?_⟩
  · exact (eq_of_afterFlush h ((flushed.connection k).symm.trans left)).1
  · rw [flushed.slot]
    cases s.mail? k with
    | none => exact h.candid k
    | some m =>
      rw [Option.elim_some]
      split
      · exact PeerSlot.candid_none
      · rintro o ⟨⟩
        simp [Outbound.Candid]
  · exact (eq_of_afterFlush h ((flushed.connection k).symm.trans left)).2
  · have left := congrArg Option.isSome (flushed.connection k)
    refine Eq.trans ?_ left.symm
    rw [flushed.slot, afterFlush]
    cases s.mail? k with
    | none => exact h.paired k
    | some m =>
      rw [Option.elim_some, Option.elim_some, Connection.afterEnvelope]
      split <;> rfl

/-! ## Servers that can be reached -/

open Lobby (withOpened)

/-- A server that has come about without any request for an envelope but those of a flush, and the
time at which an envelope last went out to a connection, or else at which the connection was
registered.  Ids may come again: then it is the time of the later registration that counts. -/
inductive Serves (config : ServerConfig) : (ConnectionId → Instant) → Server → Prop where
  | start : Serves config (fun _ => 0) (Server.start config)
  | route {served : ConnectionId → Instant} {s : Server} (serves : Serves config served s)
      (endpoint : Address) (bytes : List UInt8) :
      Serves config (withOpened served (Routed.registered? (s.route endpoint bytes).1) s.now)
        (s.route endpoint bytes).2
  /-- The host turns to the registry itself. -/
  | request {served : ConnectionId → Instant} {s : Server} (serves : Serves config served s)
      (request : Lobby.Request) :
      Serves config (withOpened served (s.lobby.enrols? request) request.time)
        { s with lobby := s.lobby.answer request }
  /-- Control messages, attributes or sequence numbers of a connection. -/
  | use {served : ConnectionId → Instant} {s : Server} (serves : Serves config served s)
      (id : ConnectionId) (f : Connection → Connection)
      (same : ∀ c, (f c).identity = c.identity ∧ (f c).lastSent = c.lastSent) :
      Serves config served { s with lobby := s.lobby.modify id f }
  | enqueue {served : ConnectionId → Instant} {s : Server} (serves : Serves config served s)
      (id : ConnectionId) (c : Command) : Serves config served (s.enqueue id c).2
  | broadcast {served : ConnectionId → Instant} {s : Server} (serves : Serves config served s)
      (c : Command) :
      Serves config served (s.broadcast c).2
  | sweep {served : ConnectionId → Instant} {s : Server} (serves : Serves config served s)
      (order : List ConnectionId) : Serves config served (s.sweepIn order).2
  | shutdown {served : ConnectionId → Instant} {s : Server} (serves : Serves config served s)
      (order : List ConnectionId) : Serves config served (s.shutdownIn order)
  | flush {served : ConnectionId → Instant} {s : Server} (serves : Serves config served s)
      {connections peers : List ConnectionId} (visits : connections.Perm s.ids)
      (sends : peers.Perm s.lobby.peers.keys) :
      Serves config (fun k => if s.reaches k then s.now else served k)
        (s.flushIn connections peers).2
  /-- Handlers, listeners, all that the host takes, the time or the link. -/
  | aside {served : ConnectionId → Instant} {s s' : Server} (serves : Serves config served s)
      (registry : s'.lobby.registry = s.lobby.registry) (peers : s'.lobby.peers = s.lobby.peers)
      (watchers : s.lobby.watchers ⊆ s'.lobby.watchers) : Serves config served s'

theorem Serves.prompt {config : ServerConfig} (serves : Serves config served s) :
    s.lobby.Prompt served := by
  induction serves with
  | start => exact ⟨⟨nofun, fun _ => PeerSlot.candid_none, nofun⟩, List.mem_cons_self, fun _ => rfl⟩
  | route _ endpoint bytes ih => exact prompt_route ih endpoint bytes
  | request _ request ih => exact ih.answer request
  | use _ id f same ih => exact ih.modify id fun c => ⟨congrArg Prod.fst (same c).1, (same c).2⟩
  | enqueue _ id c ih => exact ih.enqueue id c
  | broadcast _ c ih => exact ih.enqueueAll c _
  | sweep _ order ih => exact prompt_sweepIn ih order
  | shutdown _ order ih => exact prompt_shutdownIn ih order
  | flush _ visits sends ih => exact (flushed_of_prompt ih visits sends).prompt ih
  | aside _ registry peers watchers ih =>
    exact ih.of_eq (watchers ih.listens) (congrArg Registry.connections registry) peers

/-- In whatever order a flush visits the connections and the peers, and whichever of its sends fail:
an envelope is sent once to each connection that something is queued for, or has not been confirmed
by, or that none went out to for half the timeout, and to no others; a connection whose envelope is
too large is told goodbye once instead and closed for that; else the history stays until it is
confirmed, and the time is noted if the envelope went out; and the flush counts those.  What becomes
of a connection can be read off its own record and its own outbound state. -/
theorem flush_each {config : ServerConfig} (serves : Serves config served s)
    {connections : List ConnectionId} (visits : connections.Perm s.ids)
    (sends : peers.Perm s.lobby.peers.keys) :
    Flushed served s peers (s.flushIn connections peers).1 (s.flushIn connections peers).2 :=
  flushed_of_prompt serves.prompt visits sends

/-- The first of three clients has been sent nothing for a minute, the second has a command to come
but the link takes nothing to it, and the third has just come. -/
theorem flush_each_refused :
    let endpoint (port : UInt16) : Address := ⟨.v4 167772162, port⟩
    let hello (nonce : Nonce) : List UInt8 :=
      Wire.layOut (.numbered 1
        (.register { nonce, channel := 0, game := defaultGame, version := 1 }))
    let command : Command := .message .guaranteed 1 [1, 2]
    let early := (((start {}).route (endpoint 1) (hello 7)).2.route (endpoint 2) (hello 8)).2
    let late := (((early.elapse 60000000000).route (endpoint 3) (hello 9)).2.enqueue 2 command).2
    let s : Server :=
      { late with transport := { late.transport with refuses := (·.target = endpoint 2) } }
    let flushed := s.flushIn [2, 3, 1] [3, 1, 2]
    (∃ served, Flushed served s [3, 1, 2] flushed.1 flushed.2) ∧ flushed.1 = 1 ∧
      (flushed.2.ids.map fun k =>
        ((flushed.2.connection? k).map Connection.lastSent, flushed.2.lobby.peers.find? k)) =
        [(some 60000000000, some { nextOrder := 1 }),
          (some 0, some { history := [⟨0, [command]⟩], nextOrder := 1 }),
            (some 60000000000, some {})] := by
  intro endpoint hello command early late s flushed
  have served : Serves {} _ early :=
    (Serves.start.route (endpoint 1) (hello 7)).route (endpoint 2) (hello 8)
  have waited : Serves {} _ (early.elapse 60000000000) := served.aside rfl rfl (List.Subset.refl _)
  have serves : Serves {} _ s :=
    ((waited.route (endpoint 3) (hello 9)).enqueue 2 command).aside rfl rfl (List.Subset.refl _)
  have ids : s.ids = [1, 2, 3] := by decide +kernel
  have keys : s.lobby.peers.keys = [1, 2, 3] := by decide +kernel
  refine ⟨⟨_, flush_each serves ?_ ?_⟩, by decide +kernel, by decide +kernel⟩
  · rw [ids]
    decide
  · rw [keys]
    decide

end

end Server

end DatagramSession
