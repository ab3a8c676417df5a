import DatagramSession.Proofs.Readback
import Mathlib.Algebra.GroupWithZero.Nat
/-!
# What was read takes no more room when it is written again

A datagram that is understood need not be the one that `encode` writes: its objects may lie further
apart.  But they lie in the writer's order, one behind the other.  `regions` lists the places that a
datagram's pointers lead to, and `Laid` says that they follow each other in a window.  Each reader
accepts only what is laid like that, behind what was read before, and the writer's reckoning for
what it gives back ends no later than where it stopped.  Main statement: `recode_of_decode`, the
bytes of a packet that was read are no more than those that it was read from.
-/
namespace DatagramSession.Wire

/-! ## Regions -/

/-- A part of a datagram. -/
structure Region where
  start : Nat
  size : Nat
  deriving DecidableEq, Repr

namespace Region

def stop (r : Region) : Nat :=
  r.start + r.size

/-- How many bytes the regions have together. -/
def total (rs : List Region) : Nat :=
  (rs.map size).sum

/-- The regions lie in the window `[low, high)`, each one behind those before it. -/
def Laid (low : Nat) : List Region → Nat → Prop
  | [], high => low ≤ high
  | r :: rs, high => low ≤ r.start ∧ Laid r.stop rs high

@[simp] theorem total_nil : total [] = 0 := rfl

@[simp] theorem total_cons (r : Region) (rs : List Region) :
    total (r :: rs) = r.size + total rs := by
  simp [total]

@[simp] theorem total_append (rs rs' : List Region) : total (rs ++ rs') = total rs + total rs' := by
  simp [total]

theorem Laid.append {rs rs' : List Region} {low mid high : Nat} (first : Laid low rs mid)
    (second : Laid mid rs' high) :
    Laid low (rs ++ rs') high := by
  induction rs generalizing low with
  | nil =>
    cases rs' with
    | nil => exact Nat.le_trans first second
    | cons r rs' => exact ⟨Nat.le_trans first second.1, second.2⟩
  | cons r rs ih => exact ⟨first.1, ih first.2⟩

/-- Regions that are laid in a window fit into it all together, so that no byte is in two of
them. -/
theorem Laid.add_total_le {rs : List Region} {low high : Nat} (laid : Laid low rs high) :
    low + total rs ≤ high := by
  induction rs generalizing low with
  | nil => exact laid
  | cons r rs ih =>
    have rest := ih laid.2
    have start := laid.1
    simp only [stop, total_cons] at rest ⊢
    omega

theorem Laid.le {rs : List Region} {low high : Nat} (laid : Laid low rs high) : low ≤ high :=
  Nat.le_trans (Nat.le_add_right _ _) laid.add_total_le

theorem Laid.le_start {rs : List Region} {low high : Nat} (laid : Laid low rs high) :
    ∀ r ∈ rs, low ≤ r.start := by
  induction rs generalizing low with
  | nil => nofun
  | cons first rs ih =>
    intro r mem
    rcases List.mem_cons.1 mem with rfl | later
    · exact laid.1
    · exact Nat.le_trans laid.1 (Nat.le_trans (Nat.le_add_right _ _) (ih laid.2 r later))

theorem Laid.mono {rs : List Region} {low high high' : Nat} (laid : Laid low rs high)
    (more : high ≤ high') :
    Laid low rs high' := by
  induction rs generalizing low with
  | nil => exact Nat.le_trans laid more
  | cons r rs ih => exact ⟨laid.1, ih laid.2⟩

theorem Laid.stop_le {rs : List Region} {low high : Nat} (laid : Laid low rs high) :
    ∀ r ∈ rs, r.stop ≤ high := by
  induction rs generalizing low with
  | nil => nofun
  | cons first rs ih =>
    intro r mem
    rcases List.mem_cons.1 mem with rfl | later
    · exact laid.2.le
    · exact ih laid.2 r later

theorem Laid.pairwise {rs : List Region} {low high : Nat} (laid : Laid low rs high) :
    rs.Pairwise fun r r' => r.stop ≤ r'.start := by
  induction rs generalizing low with
  | nil => exact List.Pairwise.nil
  | cons r rs ih => exact List.Pairwise.cons laid.2.le_start (ih laid.2)

end Region

open Region

/-! ## Where the pointers of a datagram lead -/

/-- What the span at `pos` describes: elements of `width` bytes. -/
def spanRegion (bytes : Array UInt8) (width pos : Nat) : Region :=
  ⟨(follow? bytes pos pos).getD 0, width * wordAt bytes (pos + 4) 4⟩

/-- The payloads of the commands whose records start at `pos`. -/
def payloadRegions (bytes : Array UInt8) : Nat → Nat → List Region
  | 0, _ => []
  | count + 1, pos =>
    (if wordAt bytes pos 1 = 1 then [spanRegion bytes 1 (pos + 4)] else [])
      ++ payloadRegions bytes count (pos + recordSize)

/-- The payloads and the records of the list of commands that the span at `pos` describes. -/
def commandRegions (bytes : Array UInt8) (pos : Nat) : List Region :=
  let records := spanRegion bytes recordSize pos
  payloadRegions bytes (wordAt bytes (pos + 4) 4) records.start ++ [records]

/-- The commands of the batches whose records start at `pos`. -/
def batchRegions (bytes : Array UInt8) : Nat → Nat → List Region
  | 0, _ => []
  | count + 1, pos => commandRegions bytes (pos + 4) ++ batchRegions bytes count (pos + recordSize)

/-- The commands and the records of the list of batches that the span at `pos` describes. -/
def batchListRegions (bytes : Array UInt8) (pos : Nat) : List Region :=
  let records := spanRegion bytes recordSize pos
  batchRegions bytes (wordAt bytes (pos + 4) 4) records.start ++ [records]

/-- The out-of-line bytes of the text whose eight bytes are at `pos`. -/
def textRegions (bytes : Array UInt8) (pos : Nat) : List Region :=
  if wordAt bytes pos 1 / 64 = 2 then
    [⟨(follow? bytes (pos + 4) pos).getD 0, unmarkedLength (wordAt bytes pos 4)⟩]
  else []

def bodyRegions (bytes : Array UInt8) (root : Nat) : List Region :=
  match wordAt bytes (root + 16) 1 with
  | 0 => textRegions bytes (root + 36)
  | 1 => batchListRegions bytes (root + 24) ++ commandRegions bytes (root + 32)
  | 2 => if wordAt bytes (root + 28) 1 = 2 then textRegions bytes (root + 32) else []
  | _ => []

/-- All that the reader of a datagram looks at: what its pointers lead to, and its root. -/
def regions (datagram : List UInt8) : List Region :=
  let root := datagram.length - rootSize
  bodyRegions datagram.toArray root ++ [⟨root, rootSize⟩]

/-! ## What a packet carries -/

/-- The bytes of the records and the payloads of a list of commands. -/
def commandsSize (cs : List Command) : Nat :=
  payloadsSize cs + recordSize * cs.length

/-- The bytes of the records of the batches and of all that is in them. -/
def batchesSize (bs : List Batch) : Nat :=
  (bs.map fun b => commandsSize b.commands).sum + recordSize * bs.length

/-- The bytes that a body has outside of the root, without those between them. -/
def carriedSize : Body → Nat
  | .register hello => (textBlock hello.game).length
  | .envelope e => batchesSize e.guaranteed + commandsSize e.unreliable
  | .control ⟨_, _, .kick reason⟩ => (textBlock reason).length
  | .control _ => 0
  | .disconnect => 0

/-! ## Texts and payloads -/

variable {bytes : Array UInt8} {pos low low' high : Nat}

theorem length_slice {size : Nat} (inside : pos + size ≤ bytes.size) :
    (slice bytes pos size).length = size := by
  simp only [slice, Array.length_toList, Array.size_extract]
  omega

theorem fits_eq_true {step size : Nat} : fits low high pos size step = true ↔
    low ≤ pos ∧ pos + size ≤ high ∧ pos % step = 0 := by
  simp [fits, and_assoc]

/-- A text that is read lies in the window, or in its eight bytes if it is short enough for them. -/
theorem laid_of_readText {s : String} (read : readText bytes pos low high = some s)
    (start : low ≤ high) (inside : high ≤ bytes.size) :
    Laid low (textRegions bytes pos) high ∧ total (textRegions bytes pos) = (textBlock s).length ∧
      textEnd low s ≤ high := by
  unfold readText at read
  unfold textRegions
  split at read
  case isTrue marked =>
    cases target : follow? bytes (pos + 4) pos with
    | none => simp [target] at read
    | some data =>
      simp only [target, Option.bind_eq_bind, Option.bind_some, Option.ite_none_right_eq_some,
        Bool.and_eq_true, decide_eq_true_eq, fits_eq_true] at read
      obtain ⟨⟨long, free, room, _⟩, text⟩ := read
      have size : s.utf8ByteSize = unmarkedLength (wordAt bytes pos 4) := by
        rw [← Utf8.length_encode, Utf8.encode_of_decode? text,
          length_slice (Nat.le_trans room inside)]
      have outside : ¬ s.utf8ByteSize ≤ inlineSize := by omega
      rw [if_pos marked, textBlock, textEnd, if_neg outside, if_neg outside,
        Utf8.length_encode, size]
      refine ⟨⟨free, room⟩, by simp, by omega⟩
  case isFalse unmarked =>
    have short : s.utf8ByteSize ≤ inlineSize := by
      rw [← Utf8.length_encode, Utf8.encode_of_decode? read]
      apply Nat.le_trans (List.takeWhile_sublist _).length_le
      simp only [slice, Array.length_toList, Array.size_extract]
      omega
    rw [if_neg unmarked, textBlock, textEnd, if_pos short, if_pos short]
    exact ⟨start, rfl, start⟩

theorem laid_of_readPayload {payload : List UInt8}
    (read : readPayload bytes pos low high = some (payload, low')) (inside : high ≤ bytes.size) :
    Laid low [spanRegion bytes 1 pos] low' ∧ (spanRegion bytes 1 pos).size = payload.length ∧
    low' ≤ high := by
  unfold readPayload at read
  cases target : follow? bytes pos pos with
  | none => simp [target] at read
  | some data =>
    simp only [target, Option.bind_eq_bind, Option.bind_some, Option.ite_none_right_eq_some,
      fits_eq_true, Option.some.injEq, Prod.mk.injEq] at read
    obtain ⟨⟨free, room, _⟩, rfl, rfl⟩ := read
    simp only [Laid, spanRegion, target, Option.getD_some, Region.stop, Nat.one_mul, Nat.le_refl,
      and_true, length_slice (Nat.le_trans room inside), true_and]
    exact ⟨free, room⟩

/-! ## Commands -/

theorem laid_of_readCommand {c : Command} (read : readCommand bytes pos low high = some (c, low'))
    (start : low ≤ high) (inside : high ≤ bytes.size) :
    let payload := if wordAt bytes pos 1 = 1 then [spanRegion bytes 1 (pos + 4)] else []
    Laid low payload low' ∧ total payload = c.payload.length ∧ low' ≤ high := by
  unfold readCommand at read
  split at read
  case h_1 ack =>
    cases read
    rw [if_neg (by omega)]
    exact ⟨Nat.le_refl low, rfl, start⟩
  case h_2 message =>
    simp only [Option.bind_eq_bind, Option.bind_eq_some_iff, Option.some.injEq, Prod.mk.injEq,
      Prod.exists] at read
    obtain ⟨r, _, payload, stop, found, rfl, rfl⟩ := read
    obtain ⟨laid, size, room⟩ := laid_of_readPayload found inside
    rw [if_pos message]
    exact ⟨laid, by simpa [Command.payload] using size, room⟩
  case h_3 => cases read

/-- The payloads of a list of commands are laid one behind the other. -/
theorem laid_of_readCommands {count : Nat} {cs : List Command}
    (read : readCommands bytes high count pos low = some (cs, low')) (start : low ≤ high)
    (inside : high ≤ bytes.size) :
    Laid low (payloadRegions bytes count pos) low' ∧
      total (payloadRegions bytes count pos) = payloadsSize cs ∧
      cs.length = count ∧ low' ≤ high := by
  induction count generalizing pos low cs with
  | zero =>
    cases read
    exact ⟨Nat.le_refl _, rfl, rfl, start⟩
  | succ count ih =>
    simp only [readCommands, Option.bind_eq_bind, Option.bind_eq_some_iff, Option.some.injEq,
      Prod.mk.injEq, Prod.exists] at read
    obtain ⟨c, mid, first, rest, stop, later, rfl, rfl⟩ := read
    obtain ⟨here, size, room⟩ := laid_of_readCommand first start inside
    obtain ⟨there, sizes, length, stops⟩ := ih later room
    refine ⟨here.append there, ?_, congrArg (· + 1) length, stops⟩
    rw [payloadRegions, total_append, size, sizes]
    rfl

/-- The span of a list whose records are in the window, as `spanRegion` has it. -/
theorem spanRegion_eq {records width : Nat} (target : follow? bytes pos pos = some records) :
    spanRegion bytes width pos = ⟨records, width * wordAt bytes (pos + 4) 4⟩ := by
  rw [spanRegion, target, Option.getD_some]

/-- A list of commands is laid in the window, and would be written into no more of it. -/
theorem laid_of_readCommandList {cs : List Command}
    (read : readCommandList bytes pos low high = some (cs, low')) (inside : high ≤ bytes.size) :
    Laid low (commandRegions bytes pos) low' ∧ total (commandRegions bytes pos) = commandsSize cs ∧
      commandsEnd low cs ≤ low' ∧ low' ≤ high := by
  unfold readCommandList at read
  simp only [Option.bind_eq_bind, Option.bind_eq_some_iff, Option.ite_none_right_eq_some,
    fits_eq_true, Option.some.injEq, Prod.mk.injEq, Prod.exists] at read
  obtain ⟨records, target, ⟨free, room, aligned⟩, found, stop, commands, rfl, rfl⟩ := read
  obtain ⟨laid, size, length, stops⟩ := laid_of_readCommands commands free (by omega)
  have behind : low + payloadsSize found ≤ records := by
    rw [← size]
    exact Nat.le_trans laid.add_total_le stops
  have packed : commandsAt low found ≤ records := alignUp_least behind aligned
  rw [commandRegions, spanRegion_eq target]
  refine ⟨laid.append ⟨stops, Nat.le_refl _⟩, ?_, ?_, room⟩
  · simp [size, length, commandsSize]
  · rw [commandsEnd, length]
    exact Nat.add_le_add_right packed _

/-! ## Batches -/

theorem laid_of_readBatches {count : Nat} {bs : List Batch}
    (read : readBatches bytes high count pos low = some (bs, low')) (start : low ≤ high)
    (inside : high ≤ bytes.size) :
    Laid low (batchRegions bytes count pos) low' ∧
      total (batchRegions bytes count pos) = (bs.map fun b => commandsSize b.commands).sum ∧
      bs.length = count ∧ batchBlocksEnd low bs ≤ low' ∧ low' ≤ high := by
  induction count generalizing pos low bs with
  | zero =>
    cases read
    exact ⟨Nat.le_refl _, rfl, rfl, Nat.le_refl _, start⟩
  | succ count ih =>
    simp only [readBatches, Option.bind_eq_bind, Option.bind_eq_some_iff, Option.some.injEq,
      Prod.mk.injEq, Prod.exists] at read
    obtain ⟨cs, mid, first, rest, stop, later, rfl, rfl⟩ := read
    obtain ⟨here, size, packed, room⟩ := laid_of_readCommandList first inside
    obtain ⟨there, sizes, length, ends, stops⟩ := ih later room
    refine ⟨here.append there, ?_, congrArg (· + 1) length, ?_, stops⟩
    · rw [batchRegions, total_append, size, sizes, List.map_cons, List.sum_cons]
    · exact Nat.le_trans (batchBlocksEnd_mono packed (List.Sublist.refl rest).sublistForall₂) ends

theorem laid_of_readBatchList {bs : List Batch}
    (read : readBatchList bytes pos low high = some (bs, low')) (inside : high ≤ bytes.size) :
    Laid low (batchListRegions bytes pos) low' ∧
      total (batchListRegions bytes pos) = batchesSize bs ∧
      batchesEnd low bs ≤ low' ∧ low' ≤ high := by
  unfold readBatchList at read
  simp only [Option.bind_eq_bind, Option.bind_eq_some_iff, Option.ite_none_right_eq_some,
    fits_eq_true, Option.some.injEq, Prod.mk.injEq, Prod.exists] at read
  obtain ⟨records, target, ⟨free, room, aligned⟩, found, stop, batches, rfl, rfl⟩ := read
  obtain ⟨laid, size, length, ends, stops⟩ := laid_of_readBatches batches free (by omega)
  have packed : batchesAt low found ≤ records := alignUp_least (Nat.le_trans ends stops) aligned
  rw [batchListRegions, spanRegion_eq target]
  refine ⟨laid.append ⟨stops, Nat.le_refl _⟩, ?_, ?_, room⟩
  · simp [size, length, batchesSize]
  · rw [batchesEnd, length]
    exact Nat.add_le_add_right packed _

/-! ## Packets -/

theorem laid_of_readMessage {order : OrderNumber} {flags : UInt8} {message : ControlMessage}
    (read : readMessage bytes pos high = some message) (inside : high ≤ bytes.size) :
    let reason := if wordAt bytes pos 1 = 2 then textRegions bytes (pos + 4) else []
    Laid 0 reason high ∧ total reason = carriedSize (.control ⟨order, flags, message⟩) ∧
      bodyEnd (.control ⟨order, flags, message⟩) ≤ high := by
  unfold readMessage at read
  split at read
  case h_1 tag | h_2 tag | h_4 tag =>
    cases read
    rw [tag, if_neg (by decide)]
    exact ⟨Nat.zero_le high, rfl, Nat.zero_le high⟩
  case h_3 kick =>
    obtain ⟨reason, text, rfl⟩ := Option.map_eq_some_iff.1 read
    rw [if_pos kick]
    exact laid_of_readText text (Nat.zero_le high) inside
  case h_5 => cases read

/-- The body of a packet is laid before the root, and would be written into no more room. -/
theorem laid_of_readBody {root : Nat} {body : Body} (read : readBody bytes root = some body)
    (inside : root ≤ bytes.size) :
    Laid 0 (bodyRegions bytes root) root ∧ total (bodyRegions bytes root) = carriedSize body ∧
    bodyEnd body ≤ root := by
  unfold readBody at read
  split at read
  case h_1 register =>
    simp only [Option.bind_eq_bind, Option.bind_eq_some_iff, Option.some.injEq] at read
    obtain ⟨game, text, rfl⟩ := read
    simp only [bodyRegions, register]
    exact laid_of_readText text (Nat.zero_le root) inside
  case h_2 envelope =>
    simp only [Option.bind_eq_bind, Option.bind_eq_some_iff, Option.some.injEq, Prod.exists] at read
    obtain ⟨guaranteed, mid, history, unreliable, stop, rest, rfl⟩ := read
    obtain ⟨first, batches, packed, _⟩ := laid_of_readBatchList history inside
    obtain ⟨second, commands, ends, stops⟩ := laid_of_readCommandList rest inside
    simp only [bodyRegions, envelope]
    refine ⟨(first.append second).mono stops, ?_, ?_⟩
    · rw [total_append, batches, commands]
      rfl
    · exact Nat.le_trans (commandsEnd_mono packed (List.Sublist.refl _)) (Nat.le_trans ends stops)
  case h_3 control =>
    simp only [Option.bind_eq_bind, Option.bind_eq_some_iff, Option.some.injEq] at read
    obtain ⟨message, told, rfl⟩ := read
    simp only [bodyRegions, control]
    exact laid_of_readMessage told inside
  case h_4 disconnect =>
    cases read
    simp only [bodyRegions, disconnect]
    exact ⟨Nat.zero_le root, rfl, Nat.zero_le root⟩
  case h_5 => cases read

/-- What a datagram was understood from: a body in front of a root that ends the datagram. -/
theorem decode_eq_ok {datagram : List UInt8} {p : Packet} (read : decode datagram = .ok p) :
    rootSize ≤ datagram.length ∧ (datagram.length - rootSize) % 8 = 0 ∧
      readBody datagram.toArray (datagram.length - rootSize) = some p.body := by
  unfold decode at read
  split at read
  case h_2 => cases read
  case h_1 found =>
    cases read
    simp only [decode?, List.size_toArray, Bool.and_eq_true, decide_eq_true_eq,
      Option.ite_none_right_eq_some, Option.map_eq_some_iff] at found
    obtain ⟨⟨long, aligned⟩, body, read, rfl⟩ := found
    exact ⟨long, aligned, read⟩

/-- Reads a datagram and writes what was read. -/
def recode (datagram : List UInt8) : Except PacketError (List UInt8) :=
  decode datagram >>= encode

/-- Whatever was read from a datagram: its own bytes are no more than the datagram has.  So if the
datagram was no longer than what may be sent, the packet can be sent, is read from its own bytes
again, and writing it once more changes nothing.  The regions that were read lie one behind the
other within the datagram, so that no two of them have a byte in common, and they hold just the
records, payloads, out-of-line texts and the root of the packet. -/
theorem recode_of_decode (datagram : List UInt8) (p : Packet) (read : decode datagram = .ok p) :
    (layOut p).length ≤ datagram.length ∧
    (datagram.length ≤ maxPacketSize → encode p = .ok (layOut p) ∧ decode (layOut p) = .ok p ∧
      recode datagram = .ok (layOut p) ∧ recode (layOut p) = .ok (layOut p)) ∧
    ((regions datagram).Pairwise fun r r' => r.stop ≤ r'.start) ∧
    (∀ r ∈ regions datagram, r.stop ≤ datagram.length) ∧
    total (regions datagram) = carriedSize p.body + rootSize ∧
    carriedSize p.body + rootSize ≤ datagram.length := by
  obtain ⟨long, aligned, body⟩ := decode_eq_ok read
  obtain ⟨laid, size, ends⟩ := laid_of_readBody body (by simp)
  have whole : Laid 0 (regions datagram) datagram.length :=
    laid.append ⟨Nat.le_refl _, Nat.le_of_eq (Nat.sub_add_cancel long)⟩
  have weight : total (regions datagram) = carriedSize p.body + rootSize := by
    simp [regions, size]
  have small : (layOut p).length ≤ datagram.length := by
    have root := alignUp_least ends aligned
    rw [length_layOut, wireSize, rootAt]
    omega
  refine ⟨small, fun fits => ?_, whole.pairwise, whole.stop_le, weight, ?_⟩
  · have sent : encode p = .ok (layOut p) := by
      rw [encode, ← length_layOut, if_pos (Nat.le_trans small fits)]
    have again : decode (layOut p) = .ok p := ((decode_of_encode p).1 _ sent).2
    refine ⟨sent, again, ?_, ?_⟩
    · rw [recode, read]
      exact sent
    · rw [recode, again]
      exact sent
  · have room := whole.add_total_le
    rwa [weight, Nat.zero_add] at room

/-- Eight bytes that nothing points at, in front of an envelope of two batches. -/
theorem recode_of_decode_loose :
    let p : Packet := ⟨⟨1, 2, 3⟩,
      .envelope ⟨7, [⟨4, []⟩, ⟨5, [.message .guaranteed 1 [1, 2, 3], .ack 9]⟩],
        [.message .unreliable 2 [255]]⟩⟩
    let datagram := [1, 2, 3, 4, 5, 6, 7, 8] ++ layOut p
    decode datagram = .ok p ∧ recode datagram = .ok (layOut p) ∧
      recode (layOut p) = .ok (layOut p) ∧
      carriedSize p.body + rootSize ≤ datagram.length := by
  intro p datagram
  have found : decode? datagram = some p := by decide +kernel
  have read : decode datagram = .ok p := by rw [decode, found]
  obtain ⟨_, again, _, _, _, room⟩ := recode_of_decode datagram p read
  obtain ⟨_, _, once, twice⟩ := again (by decide +kernel)
  exact ⟨read, once, twice, room⟩

end DatagramSession.Wire
