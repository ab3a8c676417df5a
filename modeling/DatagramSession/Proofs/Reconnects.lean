import DatagramSession.Proofs.Sessions
/-!
# What a session keeps across reconnects

`Faithful` is what a session owes to the commands that it takes on: they are handed out in order,
each once, and a batch leaves the history only after its commands were handed out.  A session and a
connection that have taken envelopes only of each other keep it, whatever else arrives, repeated or
late, and hand out nothing else (`kept_apart`).  One late envelope of an earlier session breaks it,
for the new connection takes that envelope for its own (`late_envelope_taken`).
-/
namespace DatagramSession

/-- There is a list of batches of which each envelope carries a stretch; their commands were handed
out in order and from the first on, and those that the history lacks are first ones whose commands
were all handed out. -/
def Faithful (sent : List Envelope) (slot : PeerSlot) (handed : List Command) : Prop :=
  ∃ batches : List Batch, (∀ e ∈ sent, e.guaranteed <:+: batches) ∧
    handed <+: batches.flatMap Batch.commands ∧
    ∀ o ∈ slot, ∃ gone, o.history = batches.drop gone ∧
    (batches.take gone).flatMap Batch.commands <+: handed

namespace Faithful

variable {sent : List Envelope} {slot : PeerSlot} {handed : List Command}

/-- A batch that was sent is still in the history, or its commands were handed out one after the
other. -/
theorem kept_or_handed {o : Outbound} (h : Faithful sent (some o) handed) {e : Envelope}
    (he : e ∈ sent) {b : Batch} (hb : b ∈ e.guaranteed) :
    b ∈ o.history ∨ b.commands <:+: handed := by
  obtain ⟨batches, stretch, _, history⟩ := h
  obtain ⟨gone, left, done⟩ := history o rfl
  have known : b ∈ batches.take gone ++ batches.drop gone := by
    rw [List.take_append_drop]
    exact (stretch e he).subset hb
  rcases List.mem_append.1 known with early | late
  · right
    obtain ⟨before, after, split⟩ := List.append_of_mem early
    have within : b.commands <:+: (batches.take gone).flatMap Batch.commands :=
      ⟨before.flatMap Batch.commands, after.flatMap Batch.commands, by simp [split]⟩
    exact within.trans done.isInfix
  · left
    rwa [left]

/-- A batch that was neither kept nor handed out. -/
theorem not_of_lost {e : Envelope} (he : e ∈ sent) {b : Batch} (hb : b ∈ e.guaranteed)
    (forgotten : slot.map Outbound.history = some []) (lost : ¬ b.commands <:+: handed) :
    ¬ Faithful sent slot handed := by
  obtain ⟨o, rfl, empty⟩ := Option.map_eq_some_iff.1 forgotten
  intro h
  rcases h.kept_or_handed he hb with kept | done
  · rw [empty] at kept
    cases kept
  · exact lost done

end Faithful

/-- One direction between two linked parties is faithful. -/
theorem Linked.faithful {s back : Sending} {r : Receiving} (h : Linked s r back) {slot : PeerSlot}
    (fits : s.Fits slot) : Faithful (s.mail.map Mail.envelope) slot r.delivered := by
  have sound := h.agree.sound
  refine ⟨s.formed.map Formed.batch, ?_, ?_, ?_⟩
  · intro e he
    obtain ⟨m, posted, rfl⟩ := List.mem_map.1 he
    obtain ⟨_, gone, _, carries⟩ := sound.posted m posted
    rw [carries.guaranteed]
    have early := (Formed.upTo_prefix sound.ordered m.position).isInfix
    exact ((List.drop_suffix gone _).isInfix.trans early).map Formed.batch
  · rw [h.agree.delivered, List.flatMap_map]
    exact (Formed.reachedBy_prefix sound.ordered _).flatMap _
  · intro o ho
    refine ⟨s.released.length, ?_, ?_⟩
    · rw [← fits o ho, sound.history, List.map_drop]
    · rw [← List.map_take, ← sound.released]
      exact h.agree.released_prefix

namespace Sessions

/-- The outbound state of a session; only the last one can have any. -/
def slot (w : Sessions) (n : Nat) : PeerSlot :=
  if n = w.session then w.client.outbound else none

/-- An outbound state is the one that the session has or, while the client registers, is going to
have. -/
theorem fits_slot {w : Sessions} {n : Nat} {s : Sending} (tidy : w.client.Tidy)
    (fits : s.Fits (w.seat n)) :
    s.Fits (w.slot n) := by
  unfold slot
  unfold seat at fits
  split
  case isTrue current =>
    rw [if_pos current] at fits
    unfold Client.seat at fits
    split at fits
    case isTrue registering =>
      have empty : w.client.outbound = none := tidy (by rw [registering]; rfl)
      rw [empty]
      exact s.fits_none
    case isFalse => exact fits
  case isFalse => exact s.fits_none

/-- What a step hands out in the name of a connection, or in the current session, was sent to it by
the other side, if the connection and the session have still taken nothing else after it. -/
structure HandsOut (w w' : Sessions) (n : Nat) (k : ConnectionId) : Prop where
  server : Told (fun d => d.source = some k → ∃ e ∈ w.up n, d.command ∈ e.commands)
    w.server.deliveries w'.server.deliveries
  client : n = w.session → Told (fun d => ∃ e ∈ w.down k, d.command ∈ e.commands)
    w.client.deliveries w'.client.deliveries

section
variable {address : Address} {w w' : Sessions} {mine : Nat → Half} {theirs : ConnectionId → Half}
  {n : Nat} {k : ConnectionId}

/-- Nothing is handed out where nothing is heard. -/
theorem handsOut_of_silence
    (server : Told (Server.Hears fun _ => none) w.server.deliveries w'.server.deliveries)
    (client : Told (Client.Hears none) w.client.deliveries w'.client.deliveries) :
    HandsOut w w' n k := by
  refine ⟨server.mono ?_, fun _ => client.mono ?_⟩
  · rintro d ⟨_, _, _, ⟨⟩, _⟩
  · rintro d ⟨_, ⟨⟩, _⟩

theorem handsOut_hearUp (h : w.Tallies mine theirs) {m : Nat} {e : Envelope} (sent : e ∈ w.up m)
    {sequence : UInt32} {bytes : List UInt8}
    (carried : Wire.decode bytes = .ok (.numbered sequence (.envelope e)))
    (apart : (w.hearUp address m e bytes).Apart n k) :
    HandsOut w (w.hearUp address m e bytes) n k := by
  obtain ⟨refused, taken⟩ :=
    Server.route_envelope h.keyed address carried ((h.plain sent).not_forges address)
  unfold Sessions.hearUp at apart ⊢
  cases takes : w.server.takes address e with
  | none => exact handsOut_of_silence (refused takes).told (.of_eq rfl)
  | some result =>
    obtain ⟨id, fresh⟩ := result
    obtain ⟨s, ⟨_, told⟩, routed⟩ := taken id fresh takes
    simp only [takes] at apart
    refine ⟨?_, fun _ => .of_eq rfl⟩
    simp only [routed]
    refine told.mono ?_
    rintro d ⟨j, named, e', heard, carries⟩ source
    rw [source] at named
    cases named
    unfold Server.hearing at heard
    split at heard
    case isTrue own =>
      cases heard
      have partner : m = n := apart.1 (id, m) (List.mem_append_right _ List.mem_cons_self) own.symm
      exact ⟨e, partner ▸ sent, carries⟩
    case isFalse => cases heard

theorem handsOut_hearDown {j : ConnectionId} {e : Envelope} (sent : e ∈ w.down j)
    {sequence : UInt32} {bytes : List UInt8}
    (carried : Wire.decode bytes = .ok (.numbered sequence (.envelope e)))
    (apart : (w.hearDown j e bytes).Apart n k) : HandsOut w (w.hearDown j e bytes) n k := by
  obtain ⟨refused, taken⟩ := w.client.takeDatagram_envelope carried
  unfold Sessions.hearDown at apart ⊢
  by_cases accepts : w.client.accepts e
  · obtain ⟨c, moves, result⟩ := taken accepts
    simp only [accepts, if_true, result] at apart ⊢
    refine ⟨.of_eq rfl, fun current => moves.told.mono ?_⟩
    rintro d ⟨_, ⟨⟩, carries⟩
    have partner : j = k :=
      apart.2 (w.session, j) (List.mem_append_right _ List.mem_cons_self) current.symm
    exact ⟨e, partner ▸ sent, carries⟩
  · have old : w.client.accepts e = false := by simpa using accepts
    rw [if_neg accepts]
    exact handsOut_of_silence (.of_eq rfl) (refused old).told

theorem step_handsOut (step : Step address w w') (h : w.Tallies mine theirs)
    (apart : w'.Apart n k) :
    HandsOut w w' n k := by
  cases step with
  | connect nonce => exact handsOut_of_silence (.of_eq rfl) (.of_eq rfl)
  | client c act => exact handsOut_of_silence (.of_eq rfl) (Client.act_moves act).told
  | update => exact handsOut_of_silence (.of_eq rfl) w.client.moves_update.told
  | server s act => exact handsOut_of_silence (Server.act_keeps act).told (.of_eq rfl)
  | flush connections peers =>
    exact handsOut_of_silence (w.server.flushIn_moves _ connections peers).told (.of_eq rfl)
  | datagram bytes bare =>
    cases registered : Server.Routed.registered? (w.server.route address bytes).1 with
    | none =>
      exact handsOut_of_silence (Server.route_keeps _ h.keyed address bare registered).told
        (.of_eq rfl)
    | some id =>
      obtain ⟨token, hello, _, result⟩ := Server.route_opens address registered
      simp only [result]
      exact handsOut_of_silence (.of_eq rfl) (.of_eq rfl)
  | up m e sequence bytes sent carried => exact handsOut_hearUp h sent carried apart
  | down j e sequence bytes sent carried => exact handsOut_hearDown sent carried apart

end

/-- Envelopes may arrive late, repeated and in any order, also those of other sessions and
connections, and so may any other datagrams.  As long as what a session and a connection have taken
are only envelopes of each other, in both directions guaranteed commands are handed out in order,
each once, and only batches that were handed out leave the history; and no step hands out a command
of another session or connection in their name. -/
theorem kept_apart (clientConfig : ClientConfig) (serverConfig : ServerConfig)
    (serverAddress address : Address) {w : Sessions}
    (run : Run address (start clientConfig serverConfig serverAddress) w)
    (opened : w.opened < UInt32.size - 1) {n : Nat} {k : ConnectionId} (apart : w.Apart n k)
    (few : w.Few n k) :
    Faithful (w.up n) (w.slot n) (w.handedUp k) ∧
    Faithful (w.down k) (w.server.lobby.peers.find? k) (w.handedDown n) ∧
    ∀ w', Step address w w' → w'.Apart n k → HandsOut w w' n k := by
  obtain ⟨mine, theirs, tallies⟩ :=
    run.tallies opened (tallies_start clientConfig serverConfig serverAddress)
  have client := tallies.client n
  have server := tallies.server k
  have paired := tallies.paired n k apart few
  refine ⟨?_, ?_, fun w' step apart => step_handsOut step tallies apart⟩
  · rw [← client.sent, ← server.handed]
    exact paired.1.faithful (fits_slot tallies.tidy client.fits)
  · rw [← server.sent, ← client.handed]
    exact paired.2.faithful server.fits

/-! ## Two sessions -/

/-- The bytes of a packet that fits into a datagram. -/
def datagramOf (p : Packet) : List UInt8 :=
  (Wire.encode p).toOption.getD []

def helloOf (sequence : UInt32) (nonce : Nonce) : Packet :=
  .numbered sequence (.register { nonce, channel := 0, game := defaultGame, version := 1 })

/-- What a server tells a client that it has registered. -/
def welcomeOf (id : ConnectionId) : Packet :=
  .numbered 0 (.control (.numbered 0 (.registered id) true))

def envelopeOf (sequence : UInt32) (e : Envelope) : Packet :=
  .numbered sequence (.envelope e)

section
variable {address : Address} {w₀ w : Sessions}

theorem bare_of_decode {bytes : List UInt8} {p : Packet} (arrives : Wire.decode bytes = .ok p)
    (other : ∀ e, p.body ≠ .envelope e) :
    ∀ q e, Wire.decode bytes = .ok q → q.body ≠ .envelope e := by
  intro q e again
  rw [arrives] at again
  cases again
  exact other e

theorem Run.toServer (run : Run address w₀ w) (p : Packet)
    (arrives : Wire.decode (datagramOf p) = .ok p) (other : ∀ e, p.body ≠ .envelope e) :
    Run address w₀ { w with
      server := (w.server.route address (datagramOf p)).2
      opened := w.opened +
        (Server.Routed.registered? (w.server.route address (datagramOf p)).1).toList.length } :=
  run.next (.datagram w (datagramOf p) (bare_of_decode arrives other))

theorem Run.toClient (run : Run address w₀ w) (p : Packet)
    (arrives : Wire.decode (datagramOf p) = .ok p) (other : ∀ e, p.body ≠ .envelope e) :
    Run address w₀ { w with client := w.client.takeDatagram w.client.server (datagramOf p) } :=
  run.next (.client w _ (.datagram _ _ _ (bare_of_decode arrives other)))

theorem Run.up (run : Run address w₀ w) (n : Nat) (sequence : UInt32) (e : Envelope)
    (sent : e ∈ w.up n) (arrives : Wire.decode (datagramOf (envelopeOf sequence e)) =
      .ok (envelopeOf sequence e)) :
    Run address w₀ (w.hearUp address n e (datagramOf (envelopeOf sequence e))) :=
  run.next (.up w n e sequence _ sent arrives)

theorem Run.down (run : Run address w₀ w) (k : ConnectionId) (sequence : UInt32) (e : Envelope)
    (sent : e ∈ w.down k)
    (arrives : Wire.decode (datagramOf (envelopeOf sequence e)) = .ok (envelopeOf sequence e)) :
    Run address w₀ (w.hearDown k e (datagramOf (envelopeOf sequence e))) :=
  run.next (.down w k e sequence _ sent arrives)

/-- The client queues a command and updates. -/
theorem Run.say (run : Run address w₀ w) (c : Command) (message : c.confirmed? = none) :
    Run address w₀ { w with
      client := (w.client.enqueue c).2.update.2
      up := noted w.up w.session (w.client.enqueue c).2.builds.toList } :=
  (run.next (.client w _ (.enqueue _ c message))).next (.update _)

end

/-- The first connection falls silent, and the first session's envelope comes after one of the
second session. -/
theorem kept_apart_late_envelope :
    let serverAddress : Address := ⟨.v4 167772161, 7000⟩
    let address : Address := ⟨.v4 167772162, 50000⟩
    let first : Command := .message .guaranteed 1 [170]
    let second : Command := .message .guaranteed 1 [187]
    ∃ w, Run address (start {} {} serverAddress) w ∧ w.session = 2 ∧ w.opened < UInt32.size - 1 ∧
      w.up 1 = [⟨0, [⟨0, [first]⟩], []⟩] ∧ w.Apart 2 2 ∧ w.Few 2 2 ∧
      w.handedUp 2 = [second] ∧ (w.slot 2).map Outbound.history = some [] ∧
      Faithful (w.up 2) (w.slot 2) (w.handedUp 2) ∧
      Faithful (w.down 2) (w.server.lobby.peers.find? 2) (w.handedDown 2) := by
  intro serverAddress address first second
  have begun : Run address (start {} {} serverAddress) _ := .start
  have opened := (begun.next (.connect _ 1)).toServer (helloOf 0 1) (by decide +kernel) nofun
  have said := (opened.toClient (welcomeOf 1) (by decide +kernel) nofun).say first rfl
  have closed := said.next (.server _ _ (.close _ 1 .timeout))
  have again := (closed.next (.connect _ 2)).toServer (helloOf 3 2) (by decide +kernel) nofun
  have saidAgain := (again.toClient (welcomeOf 2) (by decide +kernel) nofun).say second rfl
  have taken := saidAgain.up 2 5 ⟨0, [⟨0, [second]⟩], []⟩ (by decide +kernel) (by decide +kernel)
  have refused := taken.up 1 2 ⟨0, [⟨0, [first]⟩], []⟩ (by decide +kernel) (by decide +kernel)
  have answered := (refused.next (.flush _ [2] [2])).down 2 0 ⟨0, [], [.ack 0]⟩ (by decide +kernel)
    (by decide +kernel)
  obtain ⟨up, down, _⟩ := kept_apart {} {} serverAddress address answered (by decide +kernel)
    (n := 2) (k := 2) (by decide +kernel) (by decide +kernel)
  exact ⟨_, answered, by decide +kernel, by decide +kernel, by decide +kernel, by decide +kernel,
    by decide +kernel, by decide +kernel, by decide +kernel, up, down⟩

/-- Every datagram here was sent, and one is late: an envelope of the first session arrives after
the second connect.  The new connection takes it for its own, so that the command of the second
session counts as old when it comes; and the acknowledgement of the first session's envelope, which
has the same number, makes the client forget that command. -/
theorem late_envelope_taken :
    let serverAddress : Address := ⟨.v4 167772161, 7000⟩
    let address : Address := ⟨.v4 167772162, 50000⟩
    let first : Command := .message .guaranteed 1 [170]
    let second : Command := .message .guaranteed 1 [187]
    let late : Envelope := ⟨0, [⟨0, [first]⟩], []⟩
    let dropped : Envelope := ⟨0, [⟨0, [second]⟩], []⟩
    let answer : Envelope := ⟨0, [], [.ack 0]⟩
    ∃ w, Run address (start {} {} serverAddress) w ∧ w.session = 2 ∧ w.opened = 2 ∧
      (∀ p ∈ [helloOf 0 1, envelopeOf 2 late, .numbered 3 .disconnect, helloOf 4 2,
        envelopeOf 6 dropped], ⟨serverAddress, datagramOf p⟩ ∈ w.client.transport.sent) ∧
      (∀ p ∈ [welcomeOf 1, welcomeOf 2, envelopeOf 1 answer],
        ⟨address, datagramOf p⟩ ∈ w.server.transport.sent) ∧
      w.up 1 = [late] ∧ w.up 2 = [dropped] ∧ w.takenUp = [(2, 1)] ∧
      w.server.deliveries = [⟨"chat", some 2, .guaranteed, first⟩] ∧ w.handedUp 2 = [first] ∧
      (w.slot 2).map Outbound.history = some [] ∧ ¬ Faithful (w.up 2) (w.slot 2)
        (w.handedUp 2) := by
  intro serverAddress address first second late dropped answer
  have begun : Run address (start {} {} serverAddress) _ := .start
  have listening := begun.next (.server _ _ (.addHandler _ (.application ⟨"chat", 0⟩)))
  have opened := (listening.next (.connect _ 1)).toServer (helloOf 0 1) (by decide +kernel) nofun
  have welcomed :=
    (opened.next (.server _ _ (.sweep _ [1]))).toClient (welcomeOf 1) (by decide +kernel) nofun
  have left := (welcomed.say first rfl).next (.client _ _ (.disconnect _))
  have closed := left.toServer (.numbered 3 .disconnect) (by decide +kernel) nofun
  have again := (closed.next (.connect _ 2)).toServer (helloOf 4 2) (by decide +kernel) nofun
  have taken := again.up 1 2 late (by decide +kernel) (by decide +kernel)
  have welcomedAgain :=
    (taken.next (.server _ _ (.sweep _ [2]))).toClient (welcomeOf 2) (by decide +kernel) nofun
  have refused :=
    (welcomedAgain.say second rfl).up 2 6 dropped (by decide +kernel) (by decide +kernel)
  have forgotten :=
    (refused.next (.flush _ [2] [2])).down 2 1 answer (by decide +kernel) (by decide +kernel)
  refine ⟨_, forgotten, by decide +kernel, by decide +kernel, by decide +kernel, by decide +kernel,
    by decide +kernel, by decide +kernel, by decide +kernel, by decide +kernel, by decide +kernel,
    by decide +kernel, ?_⟩
  apply Faithful.not_of_lost (e := dropped) (b := ⟨0, [second]⟩)
  · decide +kernel
  · decide
  · decide +kernel
  · decide +kernel

end Sessions
end DatagramSession
