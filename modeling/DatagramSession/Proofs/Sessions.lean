import DatagramSession.Proofs.Clients
import DatagramSession.Proofs.Servers
import Mathlib.Logic.Function.Basic
import Mathlib.Tactic.Choose
/-!
# A client that connects again and again

`Sessions` is a client at one address, its server and a record of what has passed between them: a
session begins with each connect, and the server names a new connection with each hello that
completes one.  Nothing in an envelope tells the session or the connection that it belongs to, and
the network may deliver any envelope that was ever built, so a connection may take envelopes of any
session.  `Tallies` ties the record to the parties and says that a session and a connection are
paired if either has taken nothing but envelopes of the other; every step keeps it (`step_tallies`).
-/
namespace DatagramSession

/-- A log with more entries under one key. -/
def noted {κ α : Type} [DecidableEq κ] (log : κ → List α) (key : κ) (more : List α) : κ → List α :=
  fun k => if k = key then log k ++ more else log k

section
variable {κ α : Type} [DecidableEq κ] {log : κ → List α} {key k : κ} {more : List α}

@[simp] theorem noted_self : noted log key more key = log key ++ more :=
  if_pos rfl

theorem noted_of_ne (other : k ≠ key) : noted log key more k = log k :=
  if_neg other

@[simp] theorem noted_nil : noted log key [] = log := by
  funext k
  by_cases same : k = key <;> simp [noted, same]

theorem mem_noted {x : α} (mem : x ∈ noted log key more k) : x ∈ log k ∨ k = key ∧ x ∈ more := by
  unfold noted at mem
  split at mem
  case isTrue same => exact (List.mem_append.1 mem).imp_right (And.intro same)
  case isFalse => exact .inl mem

theorem length_le_noted : (log k).length ≤ (noted log key more k).length := by
  unfold noted
  split
  · simp
  · exact Nat.le_refl _

end

/-- A client, its server and the record of their dealings. -/
structure Sessions where
  client : Client
  server : Server
  /-- The number of the client's session. -/
  session : Nat := 0
  /-- How many connections the server has opened. -/
  opened : Nat := 0
  /-- The envelopes that the client built in each session. -/
  up : Nat → List Envelope := fun _ => []
  /-- The envelopes that the server built for each connection. -/
  down : ConnectionId → List Envelope := fun _ => []
  /-- The guaranteed commands that the server's handlers were handed in the name of each
  connection. -/
  handedUp : ConnectionId → List Command := fun _ => []
  /-- The guaranteed commands that the client's handlers were handed in each session. -/
  handedDown : Nat → List Command := fun _ => []
  /-- Whose envelopes the connections have taken. -/
  takenUp : List (ConnectionId × Nat) := []
  /-- Whose envelopes were taken in each session. -/
  takenDown : List (Nat × ConnectionId) := []

namespace Sessions

/-- A client and a server that have not done anything yet. -/
def start (clientConfig : ClientConfig) (serverConfig : ServerConfig) (serverAddress : Address) :
    Sessions where
  client := { config := clientConfig, server := serverAddress }
  server := Server.start serverConfig

/-- An envelope of a session arrives at the server. -/
def hearUp (w : Sessions) (address : Address) (n : Nat) (e : Envelope) (bytes : List UInt8) :
    Sessions :=
  let w' := { w with server := (w.server.route address bytes).2 }
  match w.server.takes address e with
  | some (k, fresh) =>
    { w' with handedUp := noted w.handedUp k fresh, takenUp := w.takenUp ++ [(k, n)] }
  | none => w'

/-- An envelope for a connection arrives at the client. -/
def hearDown (w : Sessions) (k : ConnectionId) (e : Envelope) (bytes : List UInt8) : Sessions :=
  let w' := { w with client := w.client.takeDatagram w.client.server bytes }
  if w.client.accepts e then
    { w' with
      handedDown := noted w.handedDown w.session (e.freshCommands w.client.inbound.watermark)
      takenDown := w.takenDown ++ [(w.session, k)] }
  else w'

/-- One thing that happens.  The network delivers whatever was built, as often as it likes, and any
other datagrams. -/
inductive Step (address : Address) : Sessions → Sessions → Prop where
  | connect (w : Sessions) (nonce : Nonce) :
      Step address w { w with client := (w.client.connect nonce).2, session := w.session + 1 }
  | client (w : Sessions) (c : Client) (act : Client.Act w.client c) :
      Step address w { w with client := c }
  | update (w : Sessions) :
      Step address w { w with
        client := w.client.update.2
        up := noted w.up w.session w.client.builds.toList }
  | server (w : Sessions) (s : Server) (act : Server.Act w.server s) :
      Step address w { w with server := s }
  | flush (w : Sessions) (connections peers : List ConnectionId) :
      Step address w { w with
        server := (w.server.flushIn connections peers).2
        down := fun k => w.down k ++ w.server.buildsFor connections peers k }
  | datagram (w : Sessions) (bytes : List UInt8)
      (bare : ∀ p e, Wire.decode bytes = .ok p → p.body ≠ .envelope e) :
      Step address w { w with
        server := (w.server.route address bytes).2
        opened :=
          w.opened + (Server.Routed.registered? (w.server.route address bytes).1).toList.length }
  | up (w : Sessions) (n : Nat) (e : Envelope) (sequence : UInt32) (bytes : List UInt8)
      (sent : e ∈ w.up n) (carried : Wire.decode bytes = .ok (.numbered sequence (.envelope e))) :
      Step address w (w.hearUp address n e bytes)
  | down (w : Sessions) (k : ConnectionId) (e : Envelope) (sequence : UInt32) (bytes : List UInt8)
      (sent : e ∈ w.down k) (carried : Wire.decode bytes = .ok (.numbered sequence (.envelope e))) :
      Step address w (w.hearDown k e bytes)

inductive Run (address : Address) (w₀ : Sessions) : Sessions → Prop where
  | start : Run address w₀ w₀
  | next {w w' : Sessions} : Run address w₀ w → Step address w w' → Run address w₀ w'

/-- The connection has taken envelopes of this session only, and the session envelopes of this
connection only. -/
def Apart (w : Sessions) (n : Nat) (k : ConnectionId) : Prop :=
  (∀ p ∈ w.takenUp, p.1 = k → p.2 = n) ∧ ∀ p ∈ w.takenDown, p.1 = n → p.2 = k

instance (w : Sessions) (n : Nat) (k : ConnectionId) : Decidable (w.Apart n k) :=
  inferInstanceAs (Decidable (_ ∧ _))

/-- Neither has sent more envelopes than order numbers can tell apart. -/
def Few (w : Sessions) (n : Nat) (k : ConnectionId) : Prop :=
  (w.up n).length ≤ halfRange ∧ (w.down k).length ≤ halfRange

instance (w : Sessions) (n : Nat) (k : ConnectionId) : Decidable (w.Few n k) :=
  inferInstanceAs (Decidable (_ ∧ _))

/-! ## The record and the parties -/

end Sessions

/-- One half of a session as it is known: the slot and what was received, while there are such, and
the record. -/
structure Half.Tally (t : Half) (slot : PeerSlot) (inbound? : Option Inbound) (sent : List Envelope)
    (handed : List Command) : Prop where
  fits : t.sending.Fits slot
  inbound : ∀ i ∈ inbound?, t.receiving.inbound = i
  sent : t.sending.mail.map Mail.envelope = sent
  handed : t.receiving.delivered = handed
  sound : t.sending.Sound

namespace Half.Tally

variable {t : Half} {slot slot' : PeerSlot} {inbound? : Option Inbound} {sent built : List Envelope}
  {handed : List Command} {heard : Option Envelope}

theorem length (h : t.Tally slot inbound? sent handed) : t.sending.mail.length = sent.length := by
  rw [← h.sent, List.length_map]

theorem posted (h : t.Tally slot inbound? sent handed) {e : Envelope} (he : e ∈ sent) :
    ∃ m ∈ t.sending.mail, m.envelope = e := by
  rw [← h.sent] at he
  exact List.mem_map.1 he

/-- Whatever becomes of the slot, some continuation of the record goes with it. -/
theorem moves (h : t.Tally slot inbound? sent handed)
    (moves : PeerSlot.Moves heard built slot slot') :
    ∃ s, Sending.Does heard t.sending s ∧ (slot = none → s = t.sending) ∧
      Half.Tally ⟨s, t.receiving⟩ slot' inbound? (sent ++ built) handed := by
  by_cases empty : slot = none
  · obtain ⟨gone, idle⟩ := moves.absent empty
    subst gone idle
    exact ⟨t.sending, .rest _, fun _ => rfl, t.sending.fits_none, h.inbound, by simpa using h.sent,
      h.handed, h.sound⟩
  · obtain ⟨s, does, fits, mail⟩ := moves.follows t.sending h.fits
    exact ⟨s, does, fun absent => absurd absent empty, fits, h.inbound, by rw [mail, h.sent],
      h.handed, does.sound h.sound⟩

/-- What is no longer there need not be matched. -/
theorem forget (h : t.Tally slot inbound? sent handed) : t.Tally none none sent handed :=
  ⟨t.sending.fits_none, nofun, h.sent, h.handed, h.sound⟩

theorem mono {inbound' : Option Inbound} (h : t.Tally slot inbound? sent handed)
    (less : ∀ i ∈ inbound', i ∈ inbound?) : t.Tally slot inbound' sent handed :=
  ⟨h.fits, fun i hi => h.inbound i (less i hi), h.sent, h.handed, h.sound⟩

/-- A new envelope is taken. -/
theorem takes {i : Inbound} {m : Mail} (h : t.Tally slot (some i) sent handed)
    (newer : m.envelope.order.isNewer i.watermark = true) :
    Half.Tally ⟨t.sending, t.receiving.take m⟩ slot (some ⟨some m.envelope.order⟩) sent
      (handed ++ m.envelope.freshCommands i.watermark) := by
  have own := h.inbound i rfl
  rw [Receiving.take_of_isNewer (own ▸ newer)]
  refine ⟨h.fits, ?_, h.sent, ?_, h.sound⟩
  · rintro _ ⟨⟩
    rfl
  · rw [h.handed, own]

/-- A record is about what it says was handed out. -/
theorem own (h : t.Tally slot inbound? sent handed) :
    t.Tally slot inbound? sent t.receiving.delivered :=
  ⟨h.fits, h.inbound, h.sent, rfl, h.sound⟩

theorem fresh : Half.Tally {} slot inbound? sent handed → sent = [] ∧ handed = [] :=
  fun h => ⟨h.sent.symm, h.handed.symm⟩

/-- Where a record begins. -/
theorem begins : Half.Tally {} PeerSlot.connected (some {}) [] [] :=
  ⟨Sending.fits_some.2 rfl, fun _ same => Option.some.inj same, rfl, rfl, Sending.sound_start⟩

end Half.Tally

namespace Sessions

/-- The slot of a session; only the last one has any. -/
def seat (w : Sessions) (n : Nat) : PeerSlot :=
  if n = w.session then w.client.seat else none

/-- What was received in a session, as the client remembers it. -/
def inbound? (w : Sessions) (n : Nat) : Option Inbound :=
  if n = w.session then some w.client.inbound else none

/-- What was received from a connection, as the server remembers it. -/
def inboundOf? (s : Server) (k : ConnectionId) : Option Inbound :=
  (s.connection? k).map Connection.inbound

/-- `mine` and `theirs` are what each session and each connection have sent and received. -/
structure Tallies (w : Sessions) (mine : Nat → Half) (theirs : ConnectionId → Half) : Prop where
  client : ∀ n, (mine n).Tally (w.seat n) (w.inbound? n) (w.up n) (w.handedDown n)
  server : ∀ k, (theirs k).Tally (w.server.lobby.peers.find? k) (inboundOf? w.server k) (w.down k)
    (w.handedUp k)
  later : ∀ n, w.session < n → mine n = {}
  free : ∀ k, w.opened < k.toNat → theirs k = {} ∧ w.server.lobby.peers.find? k = none
  paired : ∀ n k, w.Apart n k → w.Few n k → Paired (mine n) (theirs k)
  tidy : w.client.Tidy
  keyed : w.server.lobby.registry.Keyed
  numbered : w.server.lobby.registry.Numbered w.opened

section
variable {address : Address} {w w' : Sessions} {mine : Nat → Half} {theirs : ConnectionId → Half}

/-! ## Steps of the client -/

/-- The current session goes on. -/
theorem Tallies.onClient (h : w.Tallies mine theirs) (c : Client) (built : List Envelope)
    (fresh : List Command) {taken : List (Nat × ConnectionId)} {t : Half}
    (grown : w.takenDown ⊆ taken)
    (tally : t.Tally c.seat (some c.inbound) (w.up w.session ++ built)
      (w.handedDown w.session ++ fresh)) (tidy : c.Tidy)
    (paired : ∀ k, (∀ p ∈ taken, p.1 = w.session → p.2 = k) → w.Apart w.session k →
      w.Few w.session k →
      t.sending.mail.length ≤ halfRange → Paired t (theirs k)) :
    { w with
      client := c
      up := noted w.up w.session built
      handedDown := noted w.handedDown w.session fresh
      takenDown := taken }.Tallies (Function.update mine w.session t) theirs where
  client n := by
    by_cases current : n = w.session
    · subst current
      simpa [seat, inbound?] using tally
    · have before := h.client n
      simp only [seat, inbound?, current, if_false] at before ⊢
      simpa only [Function.update_of_ne current, noted_of_ne current] using before
  server := h.server
  later n late := by
    have other : n ≠ w.session := Nat.ne_of_gt late
    rw [Function.update_of_ne other]
    exact h.later n late
  free := h.free
  paired n k apart few := by
    have before : w.Apart n k := ⟨apart.1, fun p hp => apart.2 p (grown hp)⟩
    have fewer : w.Few n k := ⟨Nat.le_trans length_le_noted few.1, few.2⟩
    by_cases current : n = w.session
    · subst current
      rw [Function.update_self]
      refine paired k apart.2 before fewer ?_
      rw [tally.length, ← noted_self]
      exact few.1
    · rw [Function.update_of_ne current]
      exact h.paired n k before fewer
  tidy := tidy
  keyed := h.keyed
  numbered := h.numbered

theorem Tallies.movesClient (h : w.Tallies mine theirs) {c : Client} {built : List Envelope}
    (moves : Client.Moves none built w.client c) :
    ∃ t, { w with client := c, up := noted w.up w.session built }.Tallies
      (Function.update mine w.session t)
      theirs := by
  have current := h.client w.session
  simp only [seat, inbound?, if_true] at current
  obtain ⟨s, does, _, tally⟩ := current.moves moves.seat
  have on := h.onClient c built [] (List.Subset.refl w.takenDown)
    (by simpa [moves.inbound] using tally) (moves.tidy h.tidy) fun k _ apart few fewer =>
    (h.paired w.session k apart few).does does fewer
  simp only [noted_nil] at on
  exact ⟨_, on⟩

theorem Tallies.connect (h : w.Tallies mine theirs) (nonce : Nonce) :
    { w with client := (w.client.connect nonce).2, session := w.session + 1 }.Tallies mine
      theirs where
  client n := by
    obtain ⟨seat_eq, _, inbound_eq⟩ := w.client.connect_restarts nonce
    by_cases current : n = w.session + 1
    · subst current
      have next := h.client (w.session + 1)
      rw [h.later _ (Nat.lt_succ_self _)] at next ⊢
      obtain ⟨sent, handed⟩ := next.fresh
      simp only [seat, inbound?, if_true, seat_eq, inbound_eq, sent, handed]
      exact .begins
    · simp only [seat, inbound?, current, if_false]
      exact (h.client n).forget
  server := h.server
  later n late := h.later n (Nat.lt_of_succ_lt late)
  free := h.free
  paired := h.paired
  tidy := (w.client.connect_restarts nonce).2.1
  keyed := h.keyed
  numbered := h.numbered

theorem Tallies.hearDown (h : w.Tallies mine theirs) {k : ConnectionId} {e : Envelope}
    (sent : e ∈ w.down k) {sequence : UInt32} {bytes : List UInt8}
    (carried : Wire.decode bytes = .ok (.numbered sequence (.envelope e))) :
    ∃ mine', (w.hearDown k e bytes).Tallies mine' theirs := by
  obtain ⟨refused, taken⟩ := w.client.takeDatagram_envelope carried
  unfold Sessions.hearDown
  by_cases accepts : w.client.accepts e
  · obtain ⟨c, moves, result⟩ := taken accepts
    simp only [accepts, if_true, result]
    have newer : e.order.isNewer w.client.inbound.watermark = true := by
      simp only [Client.accepts, Bool.and_eq_true] at accepts
      exact accepts.2
    obtain ⟨m, posted, rfl⟩ := (h.server k).posted sent
    have current := h.client w.session
    simp only [seat, inbound?, if_true] at current
    have own := current.inbound w.client.inbound rfl
    obtain ⟨s, does, _, tally⟩ := current.moves moves.seat
    have on := h.onClient { c with inbound := ⟨some m.envelope.order⟩ } [] _
      (List.subset_append_left w.takenDown [(w.session, k)]) (tally.takes newer)
      (moves.tidy h.tidy) ?_
    · simp only [noted_nil] at on
      exact ⟨_, on⟩
    intro k' own' apart few fewer
    have same : k = k' := own' (w.session, k) (List.mem_append_right _ List.mem_cons_self) rfl
    subst same
    apply (h.paired w.session k apart few).takes ?_ posted (own ▸ newer) does fewer
    rw [(h.server k).length]
    exact few.2
  · have old : w.client.accepts e = false := by simpa using accepts
    rw [if_neg accepts]
    obtain ⟨t, kept⟩ := h.movesClient (refused old)
    simp only [noted_nil] at kept
    exact ⟨_, kept⟩

/-! ## Steps of the server -/

theorem inboundOf?_of_lasts {s s' : Server} {k : ConnectionId}
    (lasts : Registry.Lasts s.lobby.registry s'.lobby.registry k) :
    ∀ i ∈ inboundOf? s' k, i ∈ inboundOf? s k := by
  intro i hi
  obtain ⟨c', live, rfl⟩ := Option.map_eq_some_iff.1 hi
  obtain ⟨c, before, _, same⟩ := lasts c' live
  exact Option.map_eq_some_iff.2 ⟨c, before, same.symm⟩

/-- The live connections go on, or end. -/
theorem Tallies.movesServer (h : w.Tallies mine theirs) {s : Server}
    {built : ConnectionId → List Envelope}
    (moves : Lobby.Moves (fun _ => none) built w.server.lobby s.lobby) :
    ∃ theirs', { w with server := s, down := fun k => w.down k ++ built k }.Tallies mine
      theirs' := by
  choose sending does still tally using fun k => (h.server k).moves (moves.slots k)
  refine ⟨fun k => ⟨sending k, (theirs k).receiving⟩, h.client, ?_, h.later, ?_, ?_, h.tidy,
    moves.keyed h.keyed, moves.numbered h.numbered⟩
  · exact fun k => (tally k).mono (inboundOf?_of_lasts (moves.lasts k))
  · intro k unused
    obtain ⟨nothing, empty⟩ := h.free k unused
    refine ⟨?_, ((moves.slots k).absent empty).1⟩
    simp only [still k empty, nothing]
  · intro n k apart few
    have fewer : w.Few n k := ⟨few.1, Nat.le_trans (by simp) few.2⟩
    refine ((h.paired n k apart fewer).symm.does (does k) ?_).symm
    rw [(tally k).length]
    exact few.2

/-- A connection is opened. -/
theorem Tallies.opens (h : w.Tallies mine theirs) {s : Server} {id : ConnectionId}
    (own : id = w.server.lobby.registry.nextId) (opens : Lobby.Opens w.server.lobby s.lobby id)
    (numbered : s.lobby.registry.Numbered (w.opened + 1)) :
    ∃ theirs', { w with server := s, opened := w.opened + 1 }.Tallies mine theirs' := by
  have number : id.toNat = w.opened + 1 := own ▸ h.numbered.next
  obtain ⟨unused, empty⟩ := h.free id (by omega)
  have nothing := h.server id
  rw [unused] at nothing
  obtain ⟨sent, handed⟩ := nothing.fresh
  obtain ⟨sending, does, _, tally⟩ := Half.Tally.begins.moves (opens.slot empty)
  refine ⟨Function.update theirs id ⟨sending, {}⟩, h.client, ?_, h.later, ?_, ?_, h.tidy,
    opens.keyed h.keyed, numbered⟩
  · intro k
    by_cases same : k = id
    · subst same
      rw [Function.update_self, sent, handed]
      refine tally.mono fun i hi => ?_
      obtain ⟨c, live, rfl⟩ := Option.map_eq_some_iff.1 hi
      rw [(opens.fresh c live).2]
      rfl
    · rw [Function.update_of_ne same, opens.others k same]
      exact (h.server k).mono (inboundOf?_of_lasts (opens.lasts k same))
  · intro k later
    have other : k ≠ id := by
      rintro rfl
      simp only at later
      omega
    rw [Function.update_of_ne other, opens.others k other]
    exact h.free k (Nat.lt_of_succ_lt later)
  · intro n k apart few
    have before := h.paired n k apart few
    by_cases same : k = id
    · subst same
      rw [unused] at before
      rw [Function.update_self]
      refine (before.symm.does does ?_).symm
      rw [tally.length]
      exact Nat.zero_le _
    · rw [Function.update_of_ne same]
      exact before

theorem Tallies.datagram (h : w.Tallies mine theirs) {bytes : List UInt8}
    (bare : ∀ p e, Wire.decode bytes = .ok p → p.body ≠ .envelope e)
    (few : w.opened + (Server.Routed.registered? (w.server.route address bytes).1).toList.length <
      UInt32.size - 1) :
    ∃ theirs', { w with
      server := (w.server.route address bytes).2
      opened := w.opened +
        (Server.Routed.registered? (w.server.route address bytes).1).toList.length }.Tallies mine
        theirs' := by
  cases registered : Server.Routed.registered? (w.server.route address bytes).1 with
  | none =>
    have kept := h.movesServer
      (Server.route_keeps (fun _ => none) h.keyed address bare registered).lobby
    simpa using kept
  | some id =>
    rw [registered] at few
    obtain ⟨token, hello, completed, result⟩ := Server.route_opens address registered
    obtain ⟨own, opens⟩ := Server.opens_route address registered
    refine h.opens own opens ?_
    rw [result]
    have effect := w.server.lobby.effect_answer (.hello address token hello w.server.now)
    simp only [Lobby.enrols?, Lobby.answer, completed, Lobby.completedId?] at effect
    exact effect.numbered h.numbered few

/-- What a client sends guaranteed are messages. -/
theorem Tallies.plain (h : w.Tallies mine theirs) {n : Nat} {e : Envelope} (sent : e ∈ w.up n) :
    Server.Plain e := by
  obtain ⟨m, posted, rfl⟩ := (h.client n).posted sent
  intro b hb c hc
  exact Command.confirmed?_of_isGuaranteed ((h.client n).sound.isGuaranteed posted hb hc)

/-- What a connection remembers after it has been told to remember something else. -/
theorem eq_of_mem_inboundOf?_modify {s : Server} {k : ConnectionId} {i j : Inbound}
    (kept : j ∈
      inboundOf? { s with lobby := s.lobby.modify k fun c => { c with inbound := i } } k) :
    j = i := by
  obtain ⟨c', live, rfl⟩ := Option.map_eq_some_iff.1 kept
  simp only [Server.connection?, Lobby.modify, Registry.connection?, Registry.modify,
    Table.find?_modify, if_true] at live
  obtain ⟨c, _, rfl⟩ := Option.map_eq_some_iff.1 live
  rfl

/-- A connection takes a new envelope and remembers that. -/
theorem tally_takes {t : Half} {slot : PeerSlot} {sent : List Envelope} {handed : List Command}
    {s : Server} {k : ConnectionId} {c : Connection} {m : Mail}
    (tally : t.Tally slot (inboundOf? s k) sent handed) (live : s.connection? k = some c)
    (newer : m.envelope.order.isNewer c.inbound.watermark = true) (s' : Server) :
    Half.Tally ⟨t.sending, t.receiving.take m⟩ slot
      (inboundOf? { s' with
        lobby := s'.lobby.modify k fun c => { c with inbound := ⟨some m.envelope.order⟩ } } k) sent
      (handed ++ m.envelope.freshCommands c.inbound.watermark) := by
  simp only [inboundOf?, live, Option.map_some] at tally
  refine (tally.takes newer).mono fun i hi => ?_
  rw [eq_of_mem_inboundOf?_modify hi]
  rfl

/-- A connection takes an envelope of the session that it is paired with. -/
theorem Tallies.paired_takes (h : w.Tallies mine theirs) {n : Nat} {k : ConnectionId}
    {c : Connection} {m : Mail} {s : Sending} (apart : w.Apart n k) (few : w.Few n k)
    (live : w.server.connection? k = some c) (posted : m ∈ (mine n).sending.mail)
    (newer : m.envelope.order.isNewer c.inbound.watermark = true)
    (hears : Sending.Does (some m.envelope) (theirs k).sending s)
    (less : s.mail.length ≤ halfRange) :
    Paired (mine n) ⟨s, (theirs k).receiving.take m⟩ := by
  have before := h.paired n k apart few
  have own := (h.server k).inbound c.inbound (by rw [inboundOf?, live]; rfl)
  refine (before.symm.takes ?_ posted (own ▸ newer) hears less).symm
  rw [(h.client n).length]
  exact few.1

/-- A connection takes an envelope; it is for the record to say whose. -/
theorem Tallies.onTaken (h : w.Tallies mine theirs) {s : Server} {id : ConnectionId}
    {c : Connection} {m : Mail}
    (kept : Lobby.Keeps (Server.hearing id m.envelope) w.server.lobby s.lobby)
    (live : w.server.connection? id = some c)
    (newer : m.envelope.order.isNewer c.inbound.watermark = true)
    {taken : List (ConnectionId × Nat)} (grown : w.takenUp ⊆ taken)
    (paired : ∀ n s, (∀ p ∈ taken, p.1 = id → p.2 = n) → w.Apart n id → w.Few n id →
      Sending.Does (some m.envelope) (theirs id).sending s → s.mail.length ≤ halfRange →
      Paired (mine n) ⟨s, (theirs id).receiving.take m⟩) :
    ∃ theirs', { w with
      server :=
  { s with lobby := s.lobby.modify id fun c => { c with inbound := ⟨some m.envelope.order⟩ } }
      handedUp := noted w.handedUp id (m.envelope.freshCommands c.inbound.watermark)
      takenUp := taken }.Tallies mine theirs' := by
  have alike := s.lobby.registry.alike_modify id
    (f := fun c => { c with inbound := ⟨some m.envelope.order⟩ }) fun _ => rfl
  choose sending does still tally using fun k => (h.server k).moves (kept.slots k)
  simp only [List.append_nil] at tally
  refine ⟨Function.update (fun k => ⟨sending k, (theirs k).receiving⟩) id
    ⟨sending id, (theirs id).receiving.take m⟩, h.client, ?_, h.later, ?_, ?_, h.tidy,
    alike.keyed (kept.keyed h.keyed), alike.numbered (kept.numbered h.numbered)⟩
  · intro k
    by_cases same : k = id
    · subst same
      simp only [Function.update_self, noted_self]
      exact tally_takes (tally k) live newer s
    · simp only [Function.update_of_ne same, noted_of_ne same]
      exact (tally k).mono
        (inboundOf?_of_lasts ((kept.lasts k).trans (Registry.lasts_modify_of_ne same _)))
  · intro k unused
    obtain ⟨nothing, empty⟩ := h.free k unused
    have other : k ≠ id := by
      rintro rfl
      have := h.numbered.live k c live
      simp only at unused
      omega
    rw [Function.update_of_ne other]
    simp only [still k empty, nothing]
    exact ⟨trivial, ((kept.slots k).absent empty).1⟩
  · intro n k apart few
    have earlier : w.Apart n k := ⟨fun p hp => apart.1 p (grown hp), apart.2⟩
    have less : (sending k).mail.length ≤ halfRange := by
      rw [show (sending k).mail.length = (w.down k).length from (tally k).length]
      exact few.2
    have hears := does k
    by_cases same : k = id
    · subst same
      rw [Function.update_self]
      rw [Server.hearing, if_pos rfl] at hears
      exact paired n (sending k) apart.1 earlier few hears less
    · rw [Function.update_of_ne same]
      rw [Server.hearing, if_neg same] at hears
      exact ((h.paired n k earlier few).symm.does hears less).symm

theorem Tallies.hearUp (h : w.Tallies mine theirs) {n : Nat} {e : Envelope} (sent : e ∈ w.up n)
    {sequence : UInt32} {bytes : List UInt8}
    (carried : Wire.decode bytes = .ok (.numbered sequence (.envelope e))) :
    ∃ theirs', (w.hearUp address n e bytes).Tallies mine theirs' := by
  obtain ⟨m, posted, rfl⟩ := (h.client n).posted sent
  obtain ⟨refused, taken⟩ :=
    Server.route_envelope h.keyed address carried ((h.plain sent).not_forges address)
  unfold Sessions.hearUp
  cases takes : w.server.takes address m.envelope with
  | none =>
    have kept := h.movesServer (refused takes).lobby
    simpa using kept
  | some result =>
    obtain ⟨id, fresh⟩ := result
    obtain ⟨s, ⟨kept, _⟩, routed⟩ := taken id fresh takes
    obtain ⟨c, live, newer, rfl⟩ := Server.takes_eq_some h.keyed takes
    simp only [routed]
    refine h.onTaken kept live newer (List.subset_append_left w.takenUp [(id, n)]) ?_
    intro n' s partner apart few hears less
    have same : n = n' := partner (id, n) (List.mem_append_right _ List.mem_cons_self) rfl
    subst same
    exact h.paired_takes apart few live posted newer hears less

/-! ## Runs -/

theorem tallies_start (clientConfig : ClientConfig) (serverConfig : ServerConfig)
    (serverAddress : Address) :
    (start clientConfig serverConfig serverAddress).Tallies (fun _ => {}) (fun _ => {}) := by
  have blank (slot : PeerSlot) (fits : Sending.Fits {} slot) (inbound? : Option Inbound)
      (nothing : ∀ i ∈ inbound?, ({} : Inbound) = i) : Half.Tally {} slot inbound? [] [] :=
    ⟨fits, nothing, rfl, rfl, Sending.sound_start⟩
  refine ⟨fun n => ?_, fun k => ?_, fun _ _ => rfl, fun _ _ => ⟨rfl, rfl⟩, ?_, fun _ => rfl, nofun,
    rfl, nofun⟩
  · apply blank
    · unfold seat
      split <;> exact Sending.fits_none _
    · intro i hi
      unfold inbound? at hi
      split at hi
      · exact Option.some.inj hi
      · cases hi
  · exact blank _ (Sending.fits_none _) _ nofun
  · exact fun _ _ _ _ => Paired.start

/-- Whatever happens, some record of the past goes with it. -/
theorem step_tallies (step : Step address w w') (few : w'.opened < UInt32.size - 1)
    (h : w.Tallies mine theirs) :
    ∃ mine' theirs', w'.Tallies mine' theirs' := by
  cases step with
  | connect nonce => exact ⟨_, _, h.connect nonce⟩
  | client c act =>
    obtain ⟨t, kept⟩ := h.movesClient (Client.act_moves act)
    simp only [noted_nil] at kept
    exact ⟨_, _, kept⟩
  | update =>
    obtain ⟨t, kept⟩ := h.movesClient w.client.moves_update
    exact ⟨_, _, kept⟩
  | server s act =>
    obtain ⟨theirs', kept⟩ := h.movesServer (Server.act_keeps act).lobby
    simp only [List.append_nil] at kept
    exact ⟨_, _, kept⟩
  | flush connections peers =>
    obtain ⟨theirs', kept⟩ := h.movesServer (w.server.flushIn_moves _ connections peers).lobby
    exact ⟨_, _, kept⟩
  | datagram bytes bare =>
    obtain ⟨theirs', kept⟩ := h.datagram bare few
    exact ⟨_, _, kept⟩
  | up n e sequence bytes sent carried =>
    obtain ⟨theirs', kept⟩ := h.hearUp sent carried
    exact ⟨_, _, kept⟩
  | down k e sequence bytes sent carried =>
    obtain ⟨mine', kept⟩ := h.hearDown sent carried
    exact ⟨_, _, kept⟩

theorem opened_le (step : Step address w w') : w.opened ≤ w'.opened := by
  cases step with
  | datagram => exact Nat.le_add_right _ _
  | up =>
    unfold Sessions.hearUp
    split <;> exact Nat.le_refl _
  | down =>
    unfold Sessions.hearDown
    split <;> exact Nat.le_refl _
  | connect | client | update | server | flush => exact Nat.le_refl _

theorem Run.tallies {w₀ : Sessions} (run : Run address w₀ w) (few : w.opened < UInt32.size - 1)
    (start : w₀.Tallies mine theirs) : ∃ mine' theirs', w.Tallies mine' theirs' := by
  induction run with
  | start => exact ⟨mine, theirs, start⟩
  | next _ step ih =>
    obtain ⟨_, _, kept⟩ := ih (Nat.lt_of_le_of_lt (opened_le step) few)
    exact step_tallies step few kept

end

end Sessions
end DatagramSession
