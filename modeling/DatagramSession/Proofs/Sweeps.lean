import DatagramSession.Proofs.Partings
import DatagramSession.Proofs.Refusals
/-!
# Sweeps

A sweep goes over the connections in some order and closes, repeats or leaves each of them while it
goes.  What becomes of one connection can be read off its own record (`Connection.afterSweep`,
`Connection.repeats`), and this is what a sweep does to it after any others, whatever became of them
(`Server.Sweeping.next`).  So the order does not matter, nor which of the sends fail
(`Server.sweep_each`).
-/
namespace DatagramSession

/-! ## What becomes of one connection -/

namespace Connection

/-- What a sweep makes of a connection: it is closed, or a sequence number is used up, or nothing
happens. -/
def afterSweep (c : Connection) (now : Instant) (timeout : Duration) : Option Connection :=
  if c.isTimedOut now timeout then none
  else if c.control.head?.isSome then some c.nextSequence.2
  else some c

/-- A connection that a sweep does not close is as it was, up to its sequence number. -/
theorem eq_of_afterSweep {c c' : Connection} {now : Instant} {timeout : Duration}
    (left : c.afterSweep now timeout = some c') :
    c.isTimedOut now timeout = false ∧ c' = { c with sequence := c'.sequence } := by
  unfold afterSweep at left
  split at left
  case isTrue => cases left
  case isFalse heard =>
    refine ⟨by simpa using heard, ?_⟩
    split at left <;> (cases left; rfl)

/-- The sends to a connection that a sweep attempts: one of the head of its control queue, if there
is one. -/
def repeats (c : Connection) (now : Instant) (timeout : Duration) : List (Address × Packet) :=
  if c.isTimedOut now timeout then []
  else (c.control.head?.map fun f => (c.address, .numbered c.sequence (.control f))).toList

end Connection

/-! ## Drafts that are too old -/

namespace Registry

variable {r : Registry} {e : Address} {drafts : List Draft}

theorem pending_foldl_discard (drafts : List Draft) (r : Registry) :
    (drafts.foldl discard r).pending = (drafts.map Draft.nonce).foldl Table.erase r.pending := by
  induction drafts generalizing r with
  | nil => rfl
  | cons draft rest ih =>
    rw [List.foldl_cons, ih, discard, releaseTokens_eq, List.map_cons, List.foldl_cons]

theorem find?_releaseTokens_eq (r : Registry) (endpoints : List Address) (e : Address) :
    (r.releaseTokens endpoints).tokens.find? e =
      if e ∈ endpoints ∧ r.holds e = false then none else r.tokens.find? e := by
  unfold releaseTokens
  induction endpoints generalizing r with
  | nil => simp
  | cons first rest ih =>
    have still : (r.releaseToken first).holds e = r.holds e := by
      rw [releaseToken_eq]
      rfl
    have here : (r.releaseToken first).tokens.find? e =
        if first = e ∧ r.holds e = false then none else r.tokens.find? e := by
      rw [releaseToken]
      by_cases same : first = e
      · subst same
        cases holds : r.holds first <;> simp [Table.find?_erase]
      · split <;> simp [same, Table.find?_erase]
    rw [List.foldl_cons, ih, here, still]
    cases r.holds e with
    | true => simp
    | false => by_cases later : e ∈ rest <;> simp [later, eq_comm]

/-- The drafts of a list wait, each under a nonce of its own. -/
structure Lists (r : Registry) (drafts : List Draft) : Prop where
  waits : ∀ d ∈ drafts, r.pending.find? d.nonce = some d
  once : (drafts.map Draft.nonce).Nodup

/-- When drafts are discarded, the tokens of their endpoints go, unless somebody still has the
endpoint then. -/
theorem tokens_foldl_discard (lists : r.Lists drafts) (e : Address) :
    (drafts.foldl discard r).tokens.find? e =
      if e ∈ drafts.flatMap Draft.endpoints ∧ (drafts.foldl discard r).holds e = false then none
      else r.tokens.find? e := by
  induction drafts using List.reverseRecOn with
  | nil => simp
  | append_singleton drafts d ih =>
    have once := lists.once
    rw [List.map_append, List.nodup_append] at once
    have before : r.Lists drafts :=
      ⟨fun d' mem => lists.waits d' (List.mem_append_left _ mem), once.1⟩
    have tokens := ih before
    have kept : (drafts.foldl discard r).pending.find? d.nonce = some d := by
      have other : d.nonce ∉ drafts.map Draft.nonce :=
        fun mem => once.2.2 _ mem _ (List.mem_singleton_self _) rfl
      rw [pending_foldl_discard, Table.find?_foldl_erase, if_neg other]
      exact lists.waits d (List.mem_append_right _ (List.mem_singleton_self d))
    rw [List.foldl_append, List.foldl_cons, List.foldl_nil, List.flatMap_append,
      List.flatMap_singleton]
    generalize drafts.foldl discard r = r' at tokens kept
    let left : Registry := { r' with pending := r'.pending.erase d.nonce }
    have holds : (r'.discard d).holds e = left.holds e := by
      rw [discard, releaseTokens_eq]
      rfl
    have discarded : (r'.discard d).tokens.find? e =
        if e ∈ d.endpoints ∧ left.holds e = false then none else r'.tokens.find? e :=
      left.find?_releaseTokens_eq d.endpoints e
    rw [discarded, tokens, holds]
    by_cases has : e ∈ d.endpoints
    · -- until then the endpoint was held, by this very draft
      have held : r'.holds e = true := holds_iff.2 (.inr ⟨d.nonce, d, kept, has⟩)
      simp [has, held]
    · have same : left.holds e = r'.holds e := by
        rw [Bool.eq_iff_iff, holds_iff, holds_iff]
        refine or_congr Iff.rfl ⟨?_, ?_⟩
        · rintro ⟨n, d', waits, has'⟩
          exact ⟨n, d', Table.find?_of_find?_erase waits, has'⟩
        · rintro ⟨n, d', waits, has'⟩
          refine ⟨n, d', ?_, has'⟩
          rw [Table.find?_erase, if_neg]
          · exact waits
          · rintro rfl
            cases kept.symm.trans waits
            exact has has'
      simp [has, same]

/-- The drafts that are older than the timeout. -/
def expired (r : Registry) (now : Instant) (timeout : Duration) : List Draft :=
  r.pending.values.filter (·.isOlderThan timeout now)

/-- Each draft knows the nonce that it waits under. -/
def Labelled (r : Registry) : Prop :=
  ∀ n d, r.pending.find? n = some d → d.nonce = n

theorem Labelled.lists (h : r.Labelled) (now : Instant) (timeout : Duration) :
    r.Lists (r.expired now timeout) := by
  have waits {d : Draft} (mem : d ∈ r.pending.values) : r.pending.find? d.nonce = some d := by
    obtain ⟨n, found⟩ := Table.mem_values_iff.1 mem
    rw [h n d found]
    exact found
  have names : r.pending.values.map Draft.nonce = r.pending.keys := by
    rw [Table.values, Table.keys, List.map_map]
    exact List.map_congr_left fun entry mem => h entry.1 entry.2 (Table.mem_entries_iff.1 mem)
  refine ⟨fun d mem => waits (List.mem_filter.1 mem).1, ?_⟩
  refine List.Nodup.sublist (List.filter_sublist.map Draft.nonce) ?_
  rw [names]
  exact r.pending.unique

/-- A sweep discards exactly the drafts that are too old. -/
theorem pending_expirePending (h : r.Labelled) (now : Instant) (timeout : Duration) (n : Nonce) :
    (r.expirePending now timeout).2.pending.find? n =
      (r.pending.find? n).filter fun d => !d.isOlderThan timeout now := by
  have discarded : (r.expirePending now timeout).2.pending =
      ((r.expired now timeout).map Draft.nonce).foldl Table.erase r.pending :=
    pending_foldl_discard _ _
  rw [discarded, Table.find?_foldl_erase]
  have goes : n ∈ (r.expired now timeout).map Draft.nonce ↔
      ∃ d, r.pending.find? n = some d ∧ d.isOlderThan timeout now = true := by
    simp only [expired, List.mem_map, List.mem_filter, Table.mem_values_iff]
    constructor
    · rintro ⟨d, ⟨⟨n', found⟩, old⟩, rfl⟩
      rw [h n' d found]
      exact ⟨d, found, old⟩
    · rintro ⟨d, found, old⟩
      exact ⟨d, ⟨⟨n, found⟩, old⟩, h n d found⟩
  cases found : r.pending.find? n with
  | none => simp
  | some d =>
    by_cases old : d.isOlderThan timeout now = true
    · rw [if_pos (goes.2 ⟨d, found, old⟩)]
      simp [Option.filter, old]
    · rw [if_neg fun mem =>
        old (by obtain ⟨d', found', old'⟩ := goes.1 mem; cases found.symm.trans found'; exact old')]
      simp [Option.filter, old]

/-- The tokens of their endpoints go with them, unless somebody still has the endpoint then. -/
theorem tokens_expirePending (h : r.Labelled) (now : Instant) (timeout : Duration) (e : Address) :
    (r.expirePending now timeout).2.tokens.find? e =
      if e ∈ (r.expired now timeout).flatMap Draft.endpoints ∧
          (r.expirePending now timeout).2.holds e = false then none
      else r.tokens.find? e :=
  tokens_foldl_discard (h.lists now timeout) e

end Registry

/-! ## Servers that can be reached -/

namespace Server

theorem consistent_answer {l : Lobby} (h : l.registry.Consistent)
    (fresh : l.registry.connection? l.registry.nextId = none) (request : Lobby.Request) :
    (l.answer request).registry.Consistent := by
  cases request with
  | hello endpoint token hello now =>
    exact (l.register_alike endpoint token hello now).2.consistent
      (h.register fresh endpoint token hello now)
  | close id reason =>
    rw [Lobby.answer, Lobby.close_registry]
    exact h.remove id
  | expire now timeout => exact h.expirePending now timeout

theorem Changes.consistent {s s' : Server} {n : Nat} (changes : Changes s s')
    (few : n < UInt32.size - 1) (orderly : s.lobby.Orderly n) (h : s.lobby.registry.Consistent) :
    s'.lobby.registry.Consistent := by
  induction changes with
  | refl => exact h
  | tail before change ih =>
    cases change with
    | aside registry => exact registry ▸ ih
    | note id f kept => exact (Registry.alike_modify _ id fun c => (kept c).1).consistent ih
    | accept id order confirm => exact (Registry.alike_modify _ id fun _ => by rfl).consistent ih
    | send => exact ih
    | answer request opens =>
      exact consistent_answer ih (Changes.orderly before few orderly).numbered.fresh request

theorem Reached.consistent {config : ServerConfig} {n : Nat} {s : Server}
    (reached : Reached config n s) (few : n < UInt32.size - 1) : s.lobby.registry.Consistent := by
  induction reached with
  | start =>
    exact ⟨Nat.le_max_right _ _, nofun, fun _ _ => ⟨nofun, nofun⟩, nofun, nofun, nofun, nofun,
      Nat.zero_le _⟩
  | @route n s before endpoint bytes ih =>
    have earlier : n < UInt32.size - 1 := Nat.lt_of_le_of_lt (Nat.le_add_right _ _) few
    have orderly := before.orderly earlier
    cases registered : Routed.registered? (s.route endpoint bytes).1 with
    | none =>
      exact (route_changes orderly.keyed endpoint bytes registered).consistent earlier orderly
        (ih earlier)
    | some id =>
      obtain ⟨token, hello, _, result⟩ := route_opens endpoint registered
      rw [result]
      exact consistent_answer (ih earlier) orderly.numbered.fresh
        (.hello endpoint token hello s.now)
  | @request n s before request ih =>
    have earlier : n < UInt32.size - 1 := Nat.lt_of_le_of_lt (Nat.le_add_right _ _) few
    exact consistent_answer (ih earlier) (before.orderly earlier).numbered.fresh request
  | use _ id f same ih => exact (Registry.alike_modify _ id same).consistent (ih few)
  | aside _ registry ih => exact registry ▸ ih few

/-! ## One connection after the other -/

/-- The connection has been silent for too long. -/
def silent (s : Server) (k : ConnectionId) : Bool :=
  (s.connection? k).any (·.isTimedOut s.now s.config.livenessTimeout)

/-- The sends to a connection that a sweep attempts. -/
def repeats (s : Server) (k : ConnectionId) : List (Address × Packet) :=
  (s.connection? k).elim [] (·.repeats s.now s.config.livenessTimeout)

/-- The report and the server once some connections have been swept. -/
structure Sweeping (s : Server) (done : List ConnectionId) (report : SweepReport) (s' : Server) :
    Prop where
  connection : ∀ k, s'.connection? k =
    if k ∈ done then (s.connection? k).bind (·.afterSweep s.now s.config.livenessTimeout)
    else s.connection? k
  lobby : s.lobby.Closing (done.filter s.silent) .timeout s'.lobby
  server : s' =
    { s with lobby := s'.lobby, transport := s.transport.offer (done.flatMap s.repeats) }
  report : report = {
    resent := ((done.flatMap s.repeats).filterMap s.transport.accepts?).length
    timedOut := done.countP s.silent }

section
variable {s s' : Server} {done : List ConnectionId} {k : ConnectionId} {c : Connection}
  {report : SweepReport}

theorem sweeping_nil (s : Server) : Sweeping s [] {} s :=
  ⟨fun _ => rfl, s.lobby.closing_nil .timeout, rfl, rfl⟩

/-- One more connection has been swept. -/
theorem Sweeping.step (h : Sweeping s done report s') (k : ConnectionId) {l : Lobby}
    (connection : ∀ j, l.registry.connection? j = if k = j
      then (s.connection? k).bind (·.afterSweep s.now s.config.livenessTimeout) else
        s'.connection? j)
    (lobby : s.lobby.Closing ((done ++ [k]).filter s.silent) .timeout l) :
    Sweeping s (done ++ [k])
      { report with
        resent := report.resent + ((s.repeats k).filterMap s.transport.accepts?).length
        timedOut := report.timedOut + if s.silent k then 1 else 0 }
      { s' with lobby := l, transport := s'.transport.offer (s.repeats k) } := by
  refine ⟨fun j => (connection j).trans ?_, lobby, ?_, ?_⟩
  · rw [h.connection]
    by_cases here : k = j
    · subst here
      simp
    · simp [here, Ne.symm here]
  · dsimp only
    rw [h.server]
    simp [Transport.offer_append]
  · rw [h.report]
    simp [List.countP_singleton]

/-- A connection that is neither silent nor to be told anything is left alone. -/
theorem Sweeping.skip (h : Sweeping s done report s') (loud : s.silent k = false)
    (quiet : s.repeats k = []) (before : s'.connection? k = s.connection? k)
    (same : (s.connection? k).bind (·.afterSweep s.now s.config.livenessTimeout) =
      s.connection? k) :
    Sweeping s (done ++ [k]) report s' := by
  have swept := h.step k (l := s'.lobby)
    (fun j => by
      split
      case isTrue here => rw [← here, same]; exact before
      case isFalse => rfl)
    (by simpa [loud] using h.lobby)
  simpa [loud, quiet, Transport.offer] using swept

theorem Sweeping.drop (h : Sweeping s done report s') (own : c.id = k)
    (live : s.connection? k = some c) (before : s'.connection? k = s.connection? k)
    (late : c.isTimedOut s.now s.config.livenessTimeout = true) :
    Sweeping s (done ++ [k]) { report with timedOut := report.timedOut + 1 }
      (s'.close k .timeout).2 := by
  have silent : s.silent k = true := by simp [Server.silent, live, late]
  have quiet : s.repeats k = [] := by simp [repeats, live, Connection.repeats, late]
  have swept := h.step k (l := (s'.lobby.close k .timeout).2)
    (fun j => by
      rw [live, Option.bind_some, Connection.afterSweep, if_pos late]
      exact connection?_close s' k .timeout j)
    (by
      rw [List.filter_append, List.filter_singleton, silent]
      exact h.lobby.close (before.trans live) own live rfl)
  rw [silent, quiet] at swept
  exact swept

theorem sendTo_eq (s : Server) (c : Connection) (body : Body) :
    (s.sendTo c body).1.toBool =
      (s.transport.accepts? (c.address, .numbered c.sequence body)).isSome ∧
    (s.sendTo c body).2 = { s with
      lobby := s.lobby.modify c.id fun c => c.nextSequence.2
      transport := s.transport.offer [(c.address, .numbered c.sequence body)] } :=
  ⟨(s.transport.send_eq _ _).1, rfl⟩

theorem Sweeping.resend (h : Sweeping s done report s') (own : c.id = k)
    (live : s.connection? k = some c) (before : s'.connection? k = s.connection? k)
    (heard : c.isTimedOut s.now s.config.livenessTimeout = false) {f : ControlFrame}
    (head : c.control.head? = some f) :
    Sweeping s (done ++ [k])
      { report with resent := report.resent +
          (s.transport.accepts? (c.address, .numbered c.sequence (.control f))).toList.length }
      (s'.sendTo c (.control f)).2 := by
  have loud : s.silent k = false := by simp [silent, live, heard]
  have sends : s.repeats k = [(c.address, .numbered c.sequence (.control f))] := by
    simp [repeats, live, Connection.repeats, heard, head]
  have resent : ((s.repeats k).filterMap s.transport.accepts?).length =
      (s.transport.accepts? (c.address, .numbered c.sequence (.control f))).toList.length := by
    rw [sends]
    cases accepted : s.transport.accepts? (c.address, .numbered c.sequence (.control f)) <;>
      simp [accepted]
  have swept := h.step k (l := s'.lobby.modify k fun c => c.nextSequence.2)
    (fun j => by
      refine (connection?_modify s' k (fun c => c.nextSequence.2) j).trans ?_
      split
      case isTrue here =>
        subst here
        simp [before, live, Connection.afterSweep, heard, head]
      case isFalse => rfl)
    (by simpa [loud] using h.lobby.modify k fun c => c.nextSequence.2)
  rw [resent, loud, sends] at swept
  rw [(s'.sendTo_eq c _).2, own]
  exact swept

/-- Whatever became of the others, a connection is swept on its own. -/
theorem Sweeping.next {acc : SweepReport × Server} (h : Sweeping s done acc.1 acc.2)
    (keyed : s.lobby.registry.Keyed) (new : k ∉ done) :
    Sweeping s (done ++ [k]) (sweepOne acc k).1 (sweepOne acc k).2 := by
  obtain ⟨report, s'⟩ := acc
  dsimp only at h
  have before : s'.connection? k = s.connection? k := (h.connection k).trans (if_neg new)
  have now : s'.now = s.now := by rw [h.server]
  have config : s'.config = s.config := by rw [h.server]
  have link : s'.transport.accepts? = s.transport.accepts? := by
    rw [h.server, Transport.accepts?_offer]
  unfold sweepOne
  simp only [before, now, config]
  cases live : s.connection? k with
  | none => exact h.skip (by simp [silent, live]) (by simp [repeats, live]) before (by simp [live])
  | some c =>
    have own := keyed k c live
    dsimp only
    by_cases late : c.isTimedOut s.now s.config.livenessTimeout = true
    · rw [if_pos late]
      exact h.drop own live before late
    · have heard : c.isTimedOut s.now s.config.livenessTimeout = false := by simpa using late
      rw [if_neg late]
      cases head : c.control.head? with
      | none =>
        exact h.skip (by simp [silent, live, heard])
          (by simp [repeats, live, Connection.repeats, heard, head]) before
          (by simp [live, Connection.afterSweep, heard, head])
      | some f =>
        have swept := h.resend own live before heard head
        have sent := (s'.sendTo_eq c (.control f)).1
        rw [link] at sent
        dsimp only
        generalize s'.sendTo c (.control f) = outcome at swept sent
        obtain ⟨result, s''⟩ := outcome
        cases accepted : s.transport.accepts? (c.address, .numbered c.sequence (.control f)) <;>
          cases result <;> simp_all [Except.toBool]

theorem sweeping_foldl (keyed : s.lobby.registry.Keyed) {order : List ConnectionId}
    (once : order.Nodup) :
    Sweeping s order (order.foldl sweepOne ({}, s)).1 (order.foldl sweepOne ({}, s)).2 := by
  induction order using List.reverseRecOn with
  | nil => exact s.sweeping_nil
  | append_singleton done k ih =>
    obtain ⟨before, -, differs⟩ := List.nodup_append.1 once
    rw [List.foldl_append]
    exact (ih before).next keyed fun mem => differs k mem k (List.mem_singleton_self k) rfl

/-- What a sweep has done, each connection on its own. -/
structure Swept (s : Server) (order : List ConnectionId) (report : SweepReport) (s' : Server) :
    Prop where
  /-- A connection is gone if it was silent; else only a sequence number may have been used up. -/
  connection : ∀ k, s'.connection? k = (s.connection? k).bind
    (·.afterSweep s.now s.config.livenessTimeout)
  /-- Its control queue, and what was received from it, are as before. -/
  survivor : ∀ k c', s'.connection? k = some c' →
    ∃ c, s.connection? k = some c ∧ c.isTimedOut s.now s.config.livenessTimeout = false ∧
      c' = { c with sequence := c'.sequence }
  /-- Each connection that is to confirm something is sent that once, and there are no other
  attempts. -/
  transport : s'.transport = s.transport.offer (order.flatMap s.repeats)
  events : s'.lobby.events = s.lobby.events ++ (order.filter s.silent).flatMap fun k =>
    List.replicate (s.lobby.watchers.count .events) (.disconnected k .timeout)
  notices : s'.lobby.notices = s.lobby.notices ++ (order.filter s.silent).flatMap fun k =>
    List.replicate (s.lobby.watchers.count .record) (.removed k .timeout true)
  slot : ∀ k, s'.lobby.peers.find? k =
    if s.silent k = true ∧ .peers ∈ s.lobby.watchers then none else s.lobby.peers.find? k
  draft : ∀ n, s'.lobby.registry.pending.find? n =
    (s.lobby.registry.pending.find? n).filter fun d => !d.isOlderThan s.config.livenessTimeout s.now
  endpoint : ∀ e, s'.lobby.registry.byEndpoint.find? e =
    if e ∈ (s.ids.filter s.silent).flatMap s.lobby.endpointsOf then none
    else s.lobby.registry.byEndpoint.find? e
  nonce : ∀ n, s'.lobby.registry.byNonce.find? n =
    if n ∈ (s.ids.filter s.silent).filterMap s.lobby.nonceOf then none
    else s.lobby.registry.byNonce.find? n
  /-- The tokens of closed connections go, and those of discarded drafts unless somebody still has
  the endpoint. -/
  token : ∀ e, s'.lobby.registry.tokens.find? e =
    if e ∈ (s.ids.filter s.silent).flatMap s.lobby.endpointsOf ∨
        e ∈ (s.lobby.registry.expired s.now s.config.livenessTimeout).flatMap Draft.endpoints ∧
          s'.lobby.registry.holds e = false
      then none else s.lobby.registry.tokens.find? e
  report : report = {
    resent := ((s.ids.flatMap s.repeats).filterMap s.transport.accepts?).length
    timedOut := s.ids.countP s.silent
    expired := (s.lobby.registry.expired s.now s.config.livenessTimeout).length }
  /-- Nothing else is touched. -/
  rest : s' =
    { s with lobby := { s'.lobby with watchers := s.lobby.watchers }, transport := s'.transport }
  settings : s'.lobby.registry = { s.lobby.registry with
    pending := s'.lobby.registry.pending, connections := s'.lobby.registry.connections
    byEndpoint := s'.lobby.registry.byEndpoint, byNonce := s'.lobby.registry.byNonce
    tokens := s'.lobby.registry.tokens }

theorem Sweeping.pending_eq (h : Sweeping s done report s') :
    s'.lobby.registry.pending = s.lobby.registry.pending := by
  rw [h.lobby.registry]

theorem Sweeping.expired_eq (h : Sweeping s done report s') (now : Instant) (timeout : Duration) :
    s'.lobby.registry.expired now timeout = s.lobby.registry.expired now timeout := by
  rw [Registry.expired, h.pending_eq, Registry.expired]

/-- Once every connection has been swept. -/
theorem Sweeping.connection_eq (h : Sweeping s done report s') (each : done.Perm s.ids)
    (k : ConnectionId) :
    s'.connection? k = (s.connection? k).bind (·.afterSweep s.now s.config.livenessTimeout) := by
  rw [h.connection]
  split
  case isTrue => rfl
  case isFalse absent =>
    have gone : s.connection? k = none := by simpa [each.mem_iff, mem_ids_iff] using absent
    rw [gone]
    rfl

/-- At last the drafts are discarded that are too old, which are those that were too old before the
sweep. -/
theorem Sweeping.expire (h : Sweeping s done report s') (labelled : s.lobby.registry.Labelled)
    (each : done.Perm s.ids) :
    Swept s done { report with
      expired := (s.lobby.registry.expired s.now s.config.livenessTimeout).length }
        { s' with lobby := (s'.lobby.expirePending s.now s.config.livenessTimeout).2 } := by
  have labelled' : s'.lobby.registry.Labelled := by rwa [Registry.Labelled, h.pending_eq]
  have drafts := Registry.pending_expirePending labelled' s.now s.config.livenessTimeout
  have tokens := Registry.tokens_expirePending labelled' s.now s.config.livenessTimeout
  rw [h.pending_eq] at drafts
  rw [h.expired_eq] at tokens
  obtain ⟨_, _, kept, -⟩ := s'.lobby.registry.expirePending_eq s.now s.config.livenessTimeout
  have lobby : (s'.lobby.expirePending s.now s.config.livenessTimeout).2 =
      { s'.lobby with
        registry := (s'.lobby.registry.expirePending s.now s.config.livenessTimeout).2 } := rfl
  rw [lobby]
  generalize (s'.lobby.registry.expirePending s.now s.config.livenessTimeout).2 = r
    at drafts tokens kept
  have connection (k : ConnectionId) : r.connection? k =
      (s.connection? k).bind (·.afterSweep s.now s.config.livenessTimeout) := by
    rw [← h.connection_eq each, kept]
    rfl
  have silent := each.filter s.silent
  constructor
  case connection => exact connection
  case survivor =>
    intro k c' live'
    obtain ⟨c, live, left⟩ := Option.bind_eq_some_iff.1 ((connection k).symm.trans live')
    exact ⟨c, live, Connection.eq_of_afterSweep left⟩
  case transport => rw [h.server]
  case events => rw [h.lobby.rest]
  case notices => rw [h.lobby.rest]
  case slot =>
    intro k
    have visited (silent : s.silent k = true) : k ∈ done :=
      each.mem_iff.2 (mem_ids_iff.2 (Option.isSome_of_any silent))
    simp only [h.lobby.find?_peers, List.mem_filter, and_iff_right_of_imp visited]
  case draft => exact drafts
  case endpoint =>
    rw [kept]
    exact h.lobby.find?_byEndpoint silent
  case nonce =>
    rw [kept]
    exact h.lobby.find?_byNonce silent
  case token =>
    intro e
    rw [tokens, h.lobby.find?_tokens silent]
    by_cases gone : e ∈ (s.ids.filter s.silent).flatMap s.lobby.endpointsOf
    · simp only [gone, if_true, true_or, ite_self]
    · simp only [gone, if_false, false_or]
  case report =>
    have resent : ((done.flatMap s.repeats).filterMap s.transport.accepts?).length =
        ((s.ids.flatMap s.repeats).filterMap s.transport.accepts?).length :=
      ((each.flatMap_right s.repeats).filterMap _).length_eq
    rw [h.report, resent, each.countP_eq]
  case rest => rw [h.server, h.lobby.rest]
  case settings => rw [kept, h.lobby.registry]

/-- Until ids wrap, in whatever order a sweep visits the connections and whichever of its sends
fail: the connections that were silent for longer than the timeout are closed for that, and no
others; each other one is sent the head of its control queue under its next sequence number, once,
if it has one, and keeps its queue and all that it has received; exactly the drafts that are older
than the timeout go, with the tokens that nobody else has; and the report counts what was sent,
closed and discarded.  What becomes of a connection can be read off its own record. -/
theorem sweep_each {config : ServerConfig} {n : Nat} (reached : Reached config n s)
    (few : n < UInt32.size - 1) {order : List ConnectionId} (each : order.Perm s.ids) :
    Swept s order (s.sweepIn order).1 (s.sweepIn order).2 := by
  have consistent := reached.consistent few
  have labelled : s.lobby.registry.Labelled := fun n d waits => (consistent.drafts n d waits).nonce
  have h := sweeping_foldl consistent.keyed (each.nodup_iff.2 s.lobby.registry.connections.unique)
  have left : (s.sweepIn order).2 = { (order.foldl sweepOne ({}, s)).2 with
      lobby :=
        ((order.foldl sweepOne ({}, s)).2.lobby.expirePending (order.foldl sweepOne ({}, s)).2.now
        (order.foldl sweepOne ({}, s)).2.config.livenessTimeout).2 } := rfl
  have reported : (s.sweepIn order).1 = { (order.foldl sweepOne ({}, s)).1 with
      expired := ((order.foldl sweepOne ({}, s)).2.lobby.registry.expired
        (order.foldl sweepOne ({}, s)).2.now
          (order.foldl sweepOne ({}, s)).2.config.livenessTimeout).length } := rfl
  rw [left, reported]
  generalize order.foldl sweepOne ({}, s) = acc at h
  have now : acc.2.now = s.now := by rw [h.server]
  have config : acc.2.config = s.config := by rw [h.server]
  rw [now, config, h.expired_eq]
  exact h.expire labelled each

/-- Two channels.  A connection and a draft are too old when a second connection comes; the link
takes nothing to the second one. -/
theorem sweep_each_late :
    let endpoint (port : UInt16) : Address := ⟨.v4 167772162, port⟩
    let hello (nonce : Nonce) (channel : UInt8) : List UInt8 :=
      (Wire.encode (.numbered 1
        (.register { nonce, channel, game := defaultGame, version := 1 }))).toOption.getD []
    let early := (((start { channels := 2 }).route (endpoint 1) (hello 7 0)).2.route (endpoint 2)
      (hello 7 1)).2
    let waiting := ((early.route (endpoint 3) (hello 8 0)).2.elapse 60000000000)
    let late := ((waiting.route (endpoint 4) (hello 9 0)).2.route (endpoint 5) (hello 9 1)).2
    let s : Server :=
      { late with transport := { late.transport with refuses := (·.target = endpoint 4) } }
    s.ids = [1, 2] ∧ Swept s [2, 1] (s.sweepIn [2, 1]).1 (s.sweepIn [2, 1]).2 ∧
      (s.sweepIn [2, 1]).1 = { resent := 0, timedOut := 1, expired := 1 } ∧
      (s.sweepIn [2, 1]).2.ids = [2] := by
  intro endpoint hello early waiting late s
  have reached : Reached { channels := 2 } _ s :=
    ((((Reached.start.route (endpoint 1) (hello 7 0)).route (endpoint 2) (hello 7 1)).route
      (endpoint 3) (hello 8 0)).does (.elapse _ 60000000000)).route (endpoint 4) (hello 9 0)
      |>.route (endpoint 5) (hello 9 1)
      |>.does (.relink _ _)
  have ids : s.ids = [1, 2] := by decide +kernel
  refine ⟨ids, sweep_each reached (by decide +kernel) ?_, by decide +kernel, by decide +kernel⟩
  rw [ids]
  exact List.Perm.swap 1 2 []

end

end Server

end DatagramSession
