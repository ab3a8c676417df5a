import DatagramSession.Transport
import DatagramSession.Wire.Size
/-!
# What a transport makes of a packet

A packet that is sent goes into the outbox as it is encoded, or it does not go out at all.
-/
namespace DatagramSession.Transport

theorem sent_send (t : Transport) (target : Address) (p : Packet) :
    (t.send target p).2.sent = t.sent ∨ ∃ bytes, Wire.encode p = .ok bytes ∧
      (t.send target p).2.sent = t.sent ++ [⟨target, bytes⟩] := by
  unfold send
  cases encoded : Wire.encode p with
  | error => exact .inl rfl
  | ok bytes =>
    dsimp only [sendBytes]
    split
    · exact .inl rfl
    · exact .inr ⟨bytes, rfl, rfl⟩

theorem sent_prefix_send (t : Transport) (target : Address) (p : Packet) :
    t.sent <+: (t.send target p).2.sent := by
  rcases t.sent_send target p with same | ⟨bytes, _, more⟩
  · simp [same]
  · rw [more]
    exact List.prefix_append _ _

theorem mem_sent_send {t : Transport} {target : Address} {p : Packet} {d : Datagram}
    (sent : d ∈ (t.send target p).2.sent) : d ∈ t.sent ∨ Wire.encode p = .ok d.bytes := by
  rcases t.sent_send target p with same | ⟨bytes, encoded, more⟩
  · exact .inl (same ▸ sent)
  · rw [more] at sent
    rcases List.mem_append.1 sent with old | new
    · exact .inl old
    · rw [List.mem_singleton.1 new]
      exact .inr encoded

theorem send_of_large (t : Transport) (target : Address) {p : Packet}
    (large : maxPacketSize < Wire.wireSize p) :
    t.send target p = (.error (.tooLarge (Wire.wireSize p)), t) := by
  simp [send, Wire.encode, Nat.not_le_of_lt large]

/-- What fits may be refused, but not for its size. -/
theorem send_of_fits (t : Transport) (target : Address) {p : Packet}
    (fits : Wire.wireSize p ≤ maxPacketSize) (size : Nat) :
    (t.send target p).1 ≠ .error (.tooLarge size) := by
  simp only [send, Wire.encode, fits, if_true, sendBytes]
  split <;> nofun

/-- What can be encoded goes out unless it is refused. -/
theorem send_of_encode {t : Transport} {target : Address} {p : Packet} {bytes : List UInt8}
    (encoded : Wire.encode p = .ok bytes) (clear : t.refuses ⟨target, bytes⟩ = false) :
    t.send target p = (.ok bytes.length, { t with sent := t.sent ++ [⟨target, bytes⟩] }) := by
  simp [send, encoded, sendBytes, clear]

theorem send_of_refused {t : Transport} {target : Address} {p : Packet} {bytes : List UInt8}
    (encoded : Wire.encode p = .ok bytes) (refused : t.refuses ⟨target, bytes⟩ = true) :
    t.send target p = (.error .linkDown, t) := by
  simp [send, encoded, sendBytes, refused]

theorem refuses_send (t : Transport) (target : Address) (p : Packet) :
    (t.send target p).2.refuses = t.refuses := by
  unfold send
  split
  · rfl
  · unfold sendBytes
    split <;> rfl

/-! ## Attempts -/

/-- The datagram that an attempt puts into the outbox, if the packet can be encoded and the link
takes it. -/
def accepts? (t : Transport) (attempt : Address × Packet) : Option Datagram :=
  match Wire.encode attempt.2 with
  | .ok bytes => if t.refuses ⟨attempt.1, bytes⟩ then none else some ⟨attempt.1, bytes⟩
  | .error _ => none

/-- The transport after attempts to send, one after the other. -/
def offer (t : Transport) (attempts : List (Address × Packet)) : Transport :=
  attempts.foldl (fun t attempt => (t.send attempt.1 attempt.2).2) t

theorem send_eq (t : Transport) (target : Address) (p : Packet) :
    (t.send target p).1.toBool = (t.accepts? (target, p)).isSome ∧
    (t.send target p).2 = { t with sent := t.sent ++ (t.accepts? (target, p)).toList } := by
  unfold send accepts?
  cases Wire.encode p with
  | error => simp [Except.toBool]
  | ok bytes => by_cases down : t.refuses ⟨target, bytes⟩ <;> simp [sendBytes, down, Except.toBool]

theorem offer_append (t : Transport) (first second : List (Address × Packet)) :
    t.offer (first ++ second) = (t.offer first).offer second :=
  List.foldl_append

/-- An attempt does not depend on those before it. -/
theorem offer_eq (t : Transport) (attempts : List (Address × Packet)) :
    t.offer attempts = { t with sent := t.sent ++ attempts.filterMap t.accepts? } := by
  induction attempts generalizing t with
  | nil => simp [offer]
  | cons attempt rest ih =>
    obtain ⟨target, p⟩ := attempt
    have first : t.offer ((target, p) :: rest) = (t.send target p).2.offer rest := rfl
    have same : (t.send target p).2.accepts? = t.accepts? := by
      rw [(t.send_eq target p).2]
      rfl
    rw [first, ih, same, (t.send_eq target p).2]
    cases accepted : t.accepts? (target, p) <;> simp [accepted]

theorem accepts?_offer (t : Transport) (attempts : List (Address × Packet)) :
    (t.offer attempts).accepts? = t.accepts? := by
  rw [offer_eq]
  rfl

/-- What is too large never gets to the link. -/
theorem accepts?_of_large (t : Transport) (target : Address) {p : Packet}
    (large : maxPacketSize < Wire.wireSize p) :
    t.accepts? (target, p) = none := by
  simp [accepts?, Wire.encode, Nat.not_le_of_lt large]

theorem offer_of_large (t : Transport) (target : Address) {p : Packet}
    (large : maxPacketSize < Wire.wireSize p) :
    t.offer [(target, p)] = t :=
  congrArg Prod.snd (t.send_of_large target large)

end DatagramSession.Transport
