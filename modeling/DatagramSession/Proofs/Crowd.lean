import DatagramSession.Proofs.Reconnects
import DatagramSession.Proofs.Relaying
/-!
# A session in a crowd

A `Crowd` is a client with its server, as in `Sessions`, among strangers who send the server any
datagrams from anywhere.  A stranger's envelope that a connection takes makes this connection a
strange one, and the acknowledgements that the relay then passes on are forgeries.  Without any, the
client and its own connection keep what they owe each other, and only an acknowledgement in a
guaranteed batch is ever passed on (`faithful_unless_forged`).  One forgery makes the client forget
a batch that the server has never seen (`forged_ack_passed_on`).
-/
namespace DatagramSession

namespace Server

/-- The connection that takes the envelope of a datagram which arrives now, and the guaranteed
commands that are handed out in its name. -/
def takesFrom (s : Server) (endpoint : Address) (bytes : List UInt8) :
    Option (ConnectionId × List Command) :=
  match Wire.decode bytes with
  | .ok ⟨header, .envelope e⟩ => if header.isValid then s.takes endpoint e else none
  | _ => none

variable {s : Server} {endpoint : Address} {bytes : List UInt8}

theorem takesFrom_envelope {sequence : UInt32} {e : Envelope}
    (carried : Wire.decode bytes = .ok (.numbered sequence (.envelope e))) :
    s.takesFrom endpoint bytes = s.takes endpoint e := by
  have valid : (Packet.numbered sequence (.envelope e)).header.isValid = true := by
    simp [Packet.numbered, Header.isValid]
  simp only [takesFrom, carried, Packet.numbered] at valid ⊢
  exact if_pos valid

theorem takesFrom_bare (bare : ∀ p e, Wire.decode bytes = .ok p → p.body ≠ .envelope e) :
    s.takesFrom endpoint bytes = none := by
  unfold takesFrom
  split
  case h_1 decoded => exact absurd rfl (bare _ _ decoded)
  case h_2 => rfl

end Server

/-- A datagram carries no envelope, or one of another protocol, or one that the server looks at. -/
theorem Wire.carries_cases (bytes : List UInt8) :
    (∀ p e, decode bytes = .ok p → p.body ≠ .envelope e) ∨
    (∃ header e, decode bytes = .ok ⟨header, .envelope e⟩ ∧ header.isValid = false) ∨
    ∃ sequence e, decode bytes = .ok (.numbered sequence (.envelope e)) := by
  cases decoded : decode bytes with
  | error =>
    left
    rintro p e ⟨⟩
  | ok p =>
    obtain ⟨⟨magic, version, sequence⟩, body⟩ := p
    cases body with
    | envelope e =>
      by_cases valid : (⟨magic, version, sequence⟩ : Header).isValid = true
      · simp only [Header.isValid, Bool.and_eq_true, decide_eq_true_eq] at valid
        obtain ⟨rfl, rfl⟩ := valid
        exact .inr (.inr ⟨sequence, e, rfl⟩)
      · exact .inr (.inl ⟨_, e, rfl, by simpa using valid⟩)
    | register | control | disconnect =>
      left
      rintro _ e ⟨⟩ ⟨⟩

/-- A client and its server among strangers. -/
structure Crowd where
  sessions : Sessions
  /-- The connections that have taken envelopes of strangers. -/
  strangers : List ConnectionId := []
  /-- The acknowledgements that the relay has passed on in the name of strangers. -/
  forgeries : List OrderNumber := []

namespace Crowd

/-- Nobody has done anything yet. -/
def start (clientConfig : ClientConfig) (serverConfig : ServerConfig) (serverAddress : Address) :
    Crowd where
  sessions := .start clientConfig serverConfig serverAddress

/-- A stranger's datagram arrives at the server. -/
def hear (w : Crowd) (endpoint : Address) (bytes : List UInt8) : Crowd :=
  let server := w.sessions.server
  let taken := server.takesFrom endpoint bytes
  { sessions := { w.sessions with
      server := (server.route endpoint bytes).2
      opened := w.sessions.opened +
      (Server.Routed.registered? (server.route endpoint bytes).1).toList.length
      handedUp := taken.elim w.sessions.handedUp fun (id, fresh) =>
      noted w.sessions.handedUp id fresh }
    strangers := w.strangers ++ taken.toList.map Prod.fst
    forgeries := w.forgeries ++ taken.toList.flatMap fun (_, fresh) => server.acksPassed fresh }

/-- The client, its server and the network do something, or a stranger sends a datagram from
anywhere. -/
inductive Step (address : Address) : Crowd → Crowd → Prop where
  | own (w : Crowd) (s : Sessions) (step : Sessions.Step address w.sessions s) :
      Step address w { w with sessions := s }
  | stranger (w : Crowd) (endpoint : Address) (bytes : List UInt8) :
      Step address w (w.hear endpoint bytes)

inductive Run (address : Address) (w₀ : Crowd) : Crowd → Prop where
  | start : Run address w₀ w₀
  | next {w w' : Crowd} : Run address w₀ w → Step address w w' → Run address w₀ w'

/-- Entries of two sessions for each strange connection, so that it is apart with none. -/
def marks (strangers : List ConnectionId) : List (ConnectionId × Nat) :=
  strangers.flatMap fun j => [(j, 0), (j, 1)]

end Crowd

/-- The record with the marks of strange connections. -/
def Sessions.mark (w : Sessions) (strangers : List ConnectionId) : Sessions :=
  { w with takenUp := Crowd.marks strangers ++ w.takenUp }

namespace Crowd

section
variable {address : Address} {w w' : Crowd} {s s' : Sessions} {mine : Nat → Half}
  {theirs : ConnectionId → Half} {strangers : List ConnectionId} {j k : ConnectionId} {n : Nat}

theorem marks_append (earlier later : List ConnectionId) :
    marks (earlier ++ later) = marks earlier ++ marks later :=
  List.flatMap_append

theorem marks_mixed (strange : j ∈ strangers) {taken : List (ConnectionId × Nat)}
    (marked : marks strangers ⊆ taken) :
    ¬ ∀ p ∈ taken, p.1 = j → p.2 = n := by
  intro partner
  have first := partner (j, 0) (marked (List.mem_flatMap.2 ⟨j, strange, by simp⟩)) rfl
  have second := partner (j, 1) (marked (List.mem_flatMap.2 ⟨j, strange, by simp⟩)) rfl
  exact absurd (first.trans second.symm) nofun

theorem apart_mark (familiar : k ∉ strangers) (apart : s.Apart n k) :
    (s.mark strangers).Apart n k := by
  refine ⟨fun p mem own => ?_, apart.2⟩
  rcases List.mem_append.1 mem with marked | taken
  · obtain ⟨j, strange, entry⟩ := List.mem_flatMap.1 marked
    have same : p.1 = j := by
      simp only [List.mem_cons, List.not_mem_nil, or_false] at entry
      rcases entry with rfl | rfl <;> rfl
    exact absurd (own ▸ same ▸ strange) familiar
  · exact apart.1 p taken own

/-! ## Steps of the client and its server -/

theorem hearUp_mark (s : Sessions) (strangers : List ConnectionId) (n : Nat) (e : Envelope)
    (bytes : List UInt8) :
    (s.mark strangers).hearUp address n e bytes = (s.hearUp address n e bytes).mark strangers := by
  unfold Sessions.hearUp Sessions.mark
  dsimp only
  split
  · simp
  · rfl

theorem hearDown_mark (s : Sessions) (strangers : List ConnectionId) (k : ConnectionId)
    (e : Envelope) (bytes : List UInt8) :
    (s.mark strangers).hearDown k e bytes = (s.hearDown k e bytes).mark strangers := by
  unfold Sessions.hearDown Sessions.mark
  dsimp only
  split <;> rfl

/-- Marks are neither looked at nor taken away. -/
theorem step_mark (step : Sessions.Step address s s') (strangers : List ConnectionId) :
    Sessions.Step address (s.mark strangers) (s'.mark strangers) := by
  cases step with
  | connect nonce => exact .connect (s.mark strangers) nonce
  | client c act => exact .client (s.mark strangers) c act
  | update => exact .update (s.mark strangers)
  | server server act => exact .server (s.mark strangers) server act
  | flush connections peers => exact .flush (s.mark strangers) connections peers
  | datagram bytes bare => exact .datagram (s.mark strangers) bytes bare
  | up n e sequence bytes sent carried =>
    rw [← hearUp_mark]
    exact .up (s.mark strangers) n e sequence bytes sent carried
  | down k e sequence bytes sent carried =>
    rw [← hearDown_mark]
    exact .down (s.mark strangers) k e sequence bytes sent carried

/-! ## Steps of strangers -/

theorem tallies_hear (h : (w.sessions.mark w.strangers).Tallies mine theirs) {endpoint : Address}
    {bytes : List UInt8} (few : (w.hear endpoint bytes).sessions.opened < UInt32.size - 1)
    (unforged : (w.hear endpoint bytes).forgeries = []) :
    ∃ theirs', ((w.hear endpoint bytes).sessions.mark (w.hear endpoint bytes).strangers).Tallies
      mine theirs' := by
  unfold hear at few unforged ⊢
  dsimp only at few unforged ⊢
  rcases Wire.carries_cases bytes with bare | ⟨header, e, carried, foreign⟩ | ⟨sequence, e, carried⟩
  · simp only [Server.takesFrom_bare bare, Option.toList_none, List.map_nil, List.append_nil]
    exact h.datagram bare few
  · have same : w.sessions.server.route endpoint bytes = (.malformed, w.sessions.server) := by
      simp [Server.route, carried, foreign]
    have none : w.sessions.server.takesFrom endpoint bytes = none := by
      simp [Server.takesFrom, carried, foreign]
    simp only [same, none, Option.toList_none, List.map_nil, List.append_nil]
    exact ⟨theirs, h⟩
  · simp only [Server.registered?_envelope carried, Server.takesFrom_envelope carried] at unforged ⊢
    have honest : ¬ w.sessions.server.Forges endpoint e := by
      refine Server.not_forges_of_takes fun taken mem => ?_
      exact List.flatMap_eq_nil_iff.1 (List.append_eq_nil_iff.1 unforged).2 taken
        (Option.mem_toList.2 mem)
    obtain ⟨refused, taken⟩ := Server.route_envelope h.keyed endpoint carried honest
    cases takes : w.sessions.server.takes endpoint e with
    | none =>
      have kept := h.movesServer (refused takes).lobby
      simpa [Sessions.mark] using kept
    | some result =>
      obtain ⟨id, fresh⟩ := result
      obtain ⟨server, ⟨kept, _⟩, routed⟩ := taken id fresh takes
      obtain ⟨c, live, newer, rfl⟩ := Server.takes_eq_some h.keyed takes
      have marked : marks w.strangers ++ w.sessions.takenUp ⊆ marks (w.strangers ++ [id]) ++
          w.sessions.takenUp := by
        intro p mem
        rcases List.mem_append.1 mem with before | before <;> simp [marks_append, before]
      have strange : id ∈ w.strangers ++ [id] := List.mem_append_right _ List.mem_cons_self
      have result : (w.sessions.server.route endpoint bytes).2 = _ := routed
      simp only [result]
      refine h.onTaken (m := ⟨e, 0, []⟩) kept live newer marked fun n s partner => ?_
      exact absurd partner (marks_mixed strange (List.subset_append_left _ _))

/-! ## Runs -/

/-- Without forgeries, whatever happens, some record of the past goes with it. -/
theorem step_tallies (step : Step address w w') (few : w'.sessions.opened < UInt32.size - 1)
    (unforged : w'.forgeries = []) (h : (w.sessions.mark w.strangers).Tallies mine theirs) :
    ∃ mine' theirs', (w'.sessions.mark w'.strangers).Tallies mine' theirs' := by
  cases step with
  | own s step => exact Sessions.step_tallies (step_mark step w.strangers) few h
  | stranger endpoint bytes =>
    obtain ⟨theirs', kept⟩ := tallies_hear h few unforged
    exact ⟨mine, theirs', kept⟩

theorem opened_le (step : Step address w w') : w.sessions.opened ≤ w'.sessions.opened := by
  cases step with
  | own s step => exact Sessions.opened_le step
  | stranger => exact Nat.le_add_right _ _

theorem forgeries_prefix (step : Step address w w') : w.forgeries <+: w'.forgeries := by
  cases step with
  | own => exact List.prefix_rfl
  | stranger => exact List.prefix_append _ _

theorem Run.tallies {w₀ : Crowd} (run : Run address w₀ w)
    (few : w.sessions.opened < UInt32.size - 1) (unforged : w.forgeries = [])
    (start : (w₀.sessions.mark w₀.strangers).Tallies mine theirs) :
    ∃ mine' theirs', (w.sessions.mark w.strangers).Tallies mine' theirs' := by
  induction run with
  | start => exact ⟨mine, theirs, start⟩
  | next _ step ih =>
    have before := List.prefix_nil.1 (unforged ▸ forgeries_prefix step)
    obtain ⟨_, _, kept⟩ := ih (Nat.lt_of_le_of_lt (opened_le step) few) before
    exact step_tallies step few unforged kept

/-- What the client and its server do for a while among the strangers. -/
theorem Run.alone {w₀ : Crowd} (run : Run address w₀ w) (own : Sessions.Run address w.sessions s) :
    Run address w₀ { w with sessions := s } := by
  induction own with
  | start => exact run
  | next _ step ih => exact ih.next (.own _ _ step)

theorem Run.stranger {w₀ : Crowd} (run : Run address w₀ w) (endpoint : Address) (p : Packet) :
    Run address w₀ (w.hear endpoint (Sessions.datagramOf p)) :=
  run.next (.stranger w endpoint _)

end

/-- What an envelope adds to the acknowledgements that wait for anybody but its sender are those
among its new guaranteed commands, if there is a relay.  As long as strangers add none, a session
and a connection that have taken envelopes only of each other hand out their guaranteed commands in
order, each once, and only batches that were handed out leave the history, whatever strangers send
and whatever is late or repeated. -/
theorem faithful_unless_forged (address : Address) :
    (∀ (s : Server) (endpoint : Address) (c : Connection),
      s.lobby.registry.connectionAt? endpoint = some c →
      ∀ (bytes : List UInt8) (sequence : UInt32) (e : Envelope),
        Wire.decode bytes = .ok (.numbered sequence (.envelope e)) →
        (∀ k ≠ c.id, ∀ o, s.lobby.peers.find? k = some o →
          ∃ o', (s.route endpoint bytes).2.lobby.peers.find? k = some o' ∧
            o'.acks = o.acks ++ s.forged c e) ∧
        (s.forged c e = [] ↔ (e.order.isNewer c.inbound.watermark = true → .relay ∈ s.handlers →
          ∀ a ∈ e.freshCommands c.inbound.watermark, a.confirmed? = none))) ∧
    ∀ (clientConfig : ClientConfig) (serverConfig : ServerConfig) (serverAddress : Address)
      (w : Crowd), Run address (start clientConfig serverConfig serverAddress) w →
      w.sessions.opened < UInt32.size - 1 →
      w.forgeries = [] → ∀ n, ∀ k ∉ w.strangers, w.sessions.Apart n k → w.sessions.Few n k →
        Faithful (w.sessions.up n) (w.sessions.slot n) (w.sessions.handedUp k) ∧
        Faithful (w.sessions.down k) (w.sessions.server.lobby.peers.find? k)
          (w.sessions.handedDown n) := by
  constructor
  · intro s endpoint c found bytes sequence e carried
    exact ⟨fun k other o waits => Server.acks_route found carried other waits,
      Server.forged_eq_nil_iff⟩
  · intro clientConfig serverConfig serverAddress w run opened unforged n k familiar apart few
    obtain ⟨mine, theirs, tallies⟩ :=
      run.tallies opened unforged (Sessions.tallies_start clientConfig serverConfig serverAddress)
    have client := tallies.client n
    have server := tallies.server k
    have paired := tallies.paired n k (apart_mark familiar apart) few
    constructor
    · have faithful := paired.1.faithful (Sessions.fits_slot tallies.tidy client.fits)
      rwa [client.sent, server.handed] at faithful
    · have faithful := paired.2.faithful server.fits
      rwa [server.sent, client.handed] at faithful

/-- A stranger's guaranteed command is passed on to the client, and the acknowledgement beside it is
not. -/
theorem faithful_unless_forged_relayed :
    let serverAddress : Address := ⟨.v4 167772161, 7000⟩
    let address : Address := ⟨.v4 167772162, 50000⟩
    let stranger : Address := ⟨.v4 167772163, 50000⟩
    let first : Command := .message .guaranteed 1 [170]
    let second : Command := .message .guaranteed 1 [187]
    let e : Envelope := ⟨0, [⟨0, [second]⟩], [.ack 0]⟩
    let bytes := Sessions.datagramOf (Sessions.envelopeOf 1 e)
    ∃ w : Crowd, Run address (start {} {} serverAddress) w ∧
      w.sessions.server.handlers = [.peers, .relay] ∧
      (∃ o o', w.sessions.server.lobby.peers.find? 1 = some o ∧
        (w.sessions.server.route stranger bytes).2.lobby.peers.find? 1 = some o' ∧
          o'.acks = o.acks) ∧
      ∃ w' : Crowd, Run address (start {} {} serverAddress) w' ∧ w'.forgeries = [] ∧
        w'.strangers = [2] ∧ w'.sessions.handedUp 1 = [first] ∧ w'.sessions.handedUp 2 = [second] ∧
        w'.sessions.handedDown 1 = [second] ∧ (w'.sessions.slot 1).map Outbound.history = some [] ∧
        Faithful (w'.sessions.up 1) (w'.sessions.slot 1) (w'.sessions.handedUp 1) ∧
        Faithful (w'.sessions.down 1) (w'.sessions.server.lobby.peers.find? 1)
          (w'.sessions.handedDown 1) := by
  intro serverAddress address stranger first second e bytes
  obtain ⟨route, run⟩ := faithful_unless_forged address
  have spared {w : Crowd} (waits : (w.sessions.server.lobby.peers.find? 1).isSome = true)
      (plain : (w.sessions.server.lobby.registry.connectionAt? stranger).map
        (fun c => (c.id, w.sessions.server.forged c e)) = some (2, [])) :
      ∃ o o', w.sessions.server.lobby.peers.find? 1 = some o ∧
        (w.sessions.server.route stranger bytes).2.lobby.peers.find? 1 = some o' ∧
        o'.acks = o.acks := by
    obtain ⟨c, found, here⟩ := Option.map_eq_some_iff.1 plain
    obtain ⟨o, waits⟩ := Option.isSome_iff_exists.1 waits
    have own : c.id = 2 := congrArg Prod.fst here
    have unforged : w.sessions.server.forged c e = [] := congrArg Prod.snd here
    obtain ⟨o', after, acks⟩ :=
      (route _ stranger c found bytes 1 e (by decide +kernel)).1 1 (own ▸ by decide) o waits
    exact ⟨o, o', waits, after, by rw [acks, unforged, List.append_nil]⟩
  have begun : Run address (start {} {} serverAddress) _ := .start
  have relaying := begun.alone (.next .start (.server _ _ (.addHandler _ .relay)))
  have connected := relaying.alone
    ((Sessions.Run.start.next (.connect _ 1)).toServer (Sessions.helloOf 0 1) (by decide +kernel)
      nofun)
  have joined := connected.stranger stranger (Sessions.helloOf 0 9)
  have said := joined.alone
    ((Sessions.Run.start.toClient (Sessions.welcomeOf 1) (by decide +kernel) nofun).say first rfl)
  have passed := said.stranger stranger (Sessions.envelopeOf 1 e)
  have heard := passed.alone
    (Sessions.Run.start.up 1 2 ⟨0, [⟨0, [first]⟩], []⟩ (by decide +kernel) (by decide +kernel))
  have answered := heard.alone
    ((Sessions.Run.start.next (.flush _ [1] [1])).down 1 0 ⟨0, [⟨0, [second]⟩], [.ack 0]⟩
      (by decide +kernel) (by decide +kernel))
  obtain ⟨up, down⟩ := run {} {} serverAddress _ answered (by decide +kernel) (by decide +kernel)
    1 1 (by decide +kernel) (by decide +kernel) (by decide +kernel)
  exact ⟨_, said, by decide +kernel, spared (by decide +kernel) (by decide +kernel), _, answered,
    by decide +kernel, by decide +kernel, by decide +kernel, by decide +kernel, by decide +kernel,
    by decide +kernel, up, down⟩

/-- The relay passes on an acknowledgement that a stranger has put in a guaranteed batch.  It names
the client's first envelope, which never arrives at the server, and the client forgets the batch in
it. -/
theorem forged_ack_passed_on :
    let serverAddress : Address := ⟨.v4 167772161, 7000⟩
    let address : Address := ⟨.v4 167772162, 50000⟩
    let stranger : Address := ⟨.v4 167772163, 50000⟩
    let first : Command := .message .guaranteed 1 [170]
    let bytes := Sessions.datagramOf (Sessions.envelopeOf 1 ⟨0, [⟨0, [.ack 0]⟩], []⟩)
    ∃ w : Crowd, Run address (start {} {} serverAddress) w ∧
      w.sessions.server.handlers = [.peers, .relay] ∧
      (w.sessions.server.lobby.registry.connectionAt? stranger).map Connection.id = some 2 ∧
      (w.sessions.server.lobby.peers.find? 1).map Outbound.acks = some [] ∧
      ((w.sessions.server.route stranger bytes).2.lobby.peers.find? 1).map Outbound.acks =
        some [0] ∧
      ∃ w' : Crowd, Run address (w.hear stranger bytes) w' ∧ w'.forgeries = [0] ∧
        w'.strangers = [2] ∧
        w'.sessions.opened = 2 ∧ w'.sessions.Apart 1 1 ∧
        w'.sessions.up 1 = [⟨0, [⟨0, [first]⟩], []⟩] ∧
        w'.sessions.handedUp 1 = [] ∧ (w'.sessions.slot 1).map Outbound.history = some [] ∧
        ¬ Faithful (w'.sessions.up 1) (w'.sessions.slot 1) (w'.sessions.handedUp 1) := by
  intro serverAddress address stranger first bytes
  have begun : Run address (start {} {} serverAddress) _ := .start
  have relaying := begun.alone (.next .start (.server _ _ (.addHandler _ .relay)))
  have connected := relaying.alone
    ((Sessions.Run.start.next (.connect _ 1)).toServer (Sessions.helloOf 0 1) (by decide +kernel)
      nofun)
  have joined := connected.stranger stranger (Sessions.helloOf 0 9)
  have said := joined.alone
    ((Sessions.Run.start.toClient (Sessions.welcomeOf 1) (by decide +kernel) nofun).say first rfl)
  refine ⟨_, said, by decide +kernel, by decide +kernel, by decide +kernel, by decide +kernel, _,
    Run.start.alone ((Sessions.Run.start.next (.flush _ [1] [1])).down 1 0 ⟨0, [], [.ack 0]⟩ ?_ ?_),
    ?_⟩
  · decide +kernel
  · decide +kernel
  refine ⟨by decide +kernel, by decide +kernel, by decide +kernel, by decide +kernel,
    by decide +kernel, by decide +kernel, by decide +kernel, ?_⟩
  apply Faithful.not_of_lost (e := ⟨0, [⟨0, [first]⟩], []⟩) (b := ⟨0, [first]⟩)
  · decide +kernel
  · decide
  · decide +kernel
  · decide +kernel

end Crowd
end DatagramSession
