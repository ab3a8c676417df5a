import DatagramSession.Proofs.Placement
/-!
# What was written is read back

Each reader, put where a writer has been, gives back what was written.  The readers check that no
two objects claim the same bytes, so each lemma also says where the free part of the window starts
afterwards, and asks that it started before the writer's block.  Main statement: `decode_of_encode`,
whatever can be sent is understood.
-/
namespace DatagramSession.Wire

variable {bytes : Array UInt8} {pos data low high : Nat}

/-! ## Texts -/

theorem readText_of_inline {s : String} (short : s.utf8ByteSize ≤ inlineSize)
    (field : Holds bytes pos (textField pos data s)) : readText bytes pos low high = some s := by
  have stored := field.slice_eq
  rw [length_textField] at stored
  rw [textField, if_pos short] at field stored
  have unmarked : wordAt bytes pos 1 / 64 ≠ 2 := by
    cases text : Utf8.encode s with
    | nil =>
      have empty : s.utf8ByteSize = 0 := by rw [← Utf8.length_encode, text, List.length_nil]
      rw [text, empty] at field
      have start : Holds bytes pos (255 :: List.replicate 7 255) := field
      rw [start.byte_eq]
      decide
    | cons b rest =>
      rw [text] at field
      rw [Holds.byte_eq field]
      have := Utf8.head_encode text
      have := b.toNat_lt
      omega
  rw [readText, if_neg unmarked, stored, List.takeWhile_append_of_pos]
  · simp [Utf8.decode?_encode]
  · intro b hb
    have small := Utf8.lt_of_mem_encode hb
    have : b ≠ 255 := by
      rintro rfl
      exact absurd small (by decide)
    simpa using this

theorem readText_of_outOfLine {s : String} (long : ¬ s.utf8ByteSize ≤ inlineSize)
    (field : Holds bytes pos (textField pos data s)) (block : Holds bytes data (textBlock s))
    (free : low ≤ data) (room : textEnd data s ≤ high) (back : high ≤ pos)
    (near : pos ≤ maxPacketSize) :
    readText bytes pos low high = some s := by
  rw [textField, if_neg long] at field
  rw [textBlock, if_neg long] at block
  rw [textEnd, if_neg long] at room
  obtain ⟨size, pointer⟩ := holds_append.1 field
  rw [length_littleEndian] at pointer
  have limit : maxPacketSize = 65507 := rfl
  have marked : wordAt bytes pos 1 / 64 = 2 := by
    rw [size.wordAt_eq 1 (by decide), markedLength]
    omega
  have length : unmarkedLength (wordAt bytes pos 4) = s.utf8ByteSize := by
    rw [size.wordAt_eq 4 (Nat.le_refl 4), unmarkedLength, markedLength]
    omega
  have stored := block.slice_eq
  rw [Utf8.length_encode] at stored
  rw [readText, if_pos marked, length, pointer.follow?_eq (by omega) near]
  simp [fits, stored, Utf8.decode?_encode, free, room, Nat.mod_one, Nat.lt_of_not_le long]

theorem readText_eq {s : String} (field : Holds bytes pos (textField pos data s))
    (block : Holds bytes data (textBlock s)) (free : low ≤ data) (room : textEnd data s ≤ high)
    (back : high ≤ pos) (near : pos ≤ maxPacketSize) : readText bytes pos low high = some s := by
  by_cases short : s.utf8ByteSize ≤ inlineSize
  · exact readText_of_inline short field
  · exact readText_of_outOfLine short field block free room back near

/-! ## Commands -/

theorem readReliability_tag (r : Reliability) :
    readReliability (reliabilityTag r).toNat = some r := by
  cases r <;> rfl

theorem readPayload_eq {payload : List UInt8}
    (record : Holds bytes pos (span pos data payload.length)) (block : Holds bytes data payload)
    (free : low ≤ data) (room : data + payload.length ≤ high) (back : high ≤ pos)
    (near : pos ≤ maxPacketSize) :
    readPayload bytes pos low high = some (payload, data + payload.length) := by
  obtain ⟨target, count⟩ := record.span_eq (by omega) near (by omega)
  simp [readPayload, target, count, fits, free, room, Nat.mod_one, block.slice_eq]

/-- A command without a payload leaves the window as it was, so that the free part is only
bounded. -/
theorem readCommand_eq {c : Command} (record : Holds bytes pos (commandRecord pos data c))
    (block : Holds bytes data c.payload) (free : low ≤ data) (room : data + c.payload.length ≤ high)
    (back : high ≤ pos) (near : pos + 4 ≤ maxPacketSize) :
    ∃ low' ≤ data + c.payload.length, readCommand bytes pos low high = some (c, low') := by
  cases c with
  | ack confirmed =>
    obtain ⟨start, _⟩ := holds_append.1 record
    obtain ⟨tag, number⟩ := holds_append.1 start
    rw [length_littleEndian] at number
    refine ⟨low, by omega, ?_⟩
    rw [readCommand, tag.wordAt_eq 1 (by decide)]
    simp [number.word_eq 4 (Nat.le_refl 4) confirmed.toNat_lt]
  | message r kind payload =>
    obtain ⟨start, span⟩ := holds_append.1 record
    obtain ⟨tags, number⟩ := holds_append.1 start
    have word : wordAt bytes (pos + 2) 2 = kind.toNat :=
      Holds.word_eq number 2 (Nat.le_refl 2) kind.toNat_lt
    have tag : wordAt bytes (pos + 1) 1 = (reliabilityTag r).toNat := (holds_cons.1 tags).2.byte_eq
    have body : readPayload bytes (pos + 4) low high = some (payload, data + payload.length) :=
      readPayload_eq span block free room (by omega) near
    refine ⟨_, Nat.le_refl _, ?_⟩
    rw [readCommand, tags.byte_eq]
    simp [tag, readReliability_tag, body, word, Command.payload]

theorem readCommands_eq {cs : List Command} (records : Holds bytes pos (commandRecords pos data cs))
    (blocks : Holds bytes data (payloads cs)) (free : low ≤ data)
    (room : data + payloadsSize cs ≤ high) (back : high ≤ pos)
    (near : pos + recordSize * cs.length ≤ maxPacketSize) :
    ∃ low', readCommands bytes high cs.length pos low = some (cs, low') := by
  induction cs generalizing pos data low with
  | nil => exact ⟨low, rfl⟩
  | cons c rest ih =>
    obtain ⟨record, later⟩ := holds_append.1 records
    obtain ⟨block, others⟩ := holds_append.1 blocks
    rw [length_commandRecord] at later
    have size : recordSize = 12 := rfl
    have total : payloadsSize (c :: rest) = c.payload.length + payloadsSize rest := rfl
    rw [List.length_cons, Nat.mul_succ] at near
    obtain ⟨low', below, here⟩ := readCommand_eq record block free (by omega) back (by omega)
    obtain ⟨low'', there⟩ : ∃ low'',
      readCommands bytes high rest.length (pos + recordSize) low' = some (rest, low'') :=
      ih later others below (by omega) (by omega) (by omega)
    refine ⟨low'', ?_⟩
    simp [readCommands, here, there]

/-- Records of a list lie in the window if they lie in front of what is not free. -/
theorem fits_records {count : Nat} (free : low ≤ pos) (room : pos + recordSize * count ≤ high)
    (aligned : pos % 4 = 0) : fits low high pos (recordSize * count) 4 = true := by
  simp only [fits, free, room, aligned, decide_true, Bool.and_self]

theorem le_recordSize_mul (count : Nat) : count ≤ recordSize * count :=
  Nat.le_mul_of_pos_left _ (by decide)

/-- A list of commands is read where its block was written, and what lies behind the block stays
free. -/
theorem readCommandList_eq {cs : List Command} {source : Nat}
    (record : Holds bytes source (span source (commandsAt pos cs) cs.length))
    (block : Holds bytes pos (commandBlock pos cs)) (free : low ≤ pos)
    (room : commandsEnd pos cs ≤ high) (back : high ≤ source) (near : source ≤ maxPacketSize) :
    readCommandList bytes source low high = some (cs, commandsEnd pos cs) := by
  obtain ⟨stored, records⟩ := block.commandBlock_parts
  have behind : pos + payloadsSize cs ≤ commandsAt pos cs := le_alignUp _ (by decide)
  have short := le_recordSize_mul cs.length
  simp only [commandsEnd] at room ⊢
  obtain ⟨target, count⟩ := record.span_eq (by omega) near (by omega)
  obtain ⟨low', commands⟩ : ∃ low',
    readCommands bytes (commandsAt pos cs) cs.length (commandsAt pos cs) low
      = some (cs, low') := readCommands_eq records stored free behind (Nat.le_refl _) (by omega)
  have fit : fits low high (commandsAt pos cs) (recordSize * cs.length) 4 = true :=
    fits_records (by omega) room (alignUp_mod 4 _)
  simp [readCommandList, target, count, fit, commands]

/-! ## Batches -/

theorem readBatches_eq {bs : List Batch} (records : Holds bytes pos (batchRecords pos data bs))
    (blocks : Holds bytes data (batchBlocks data bs)) (free : low ≤ data)
    (room : batchBlocksEnd data bs ≤ high) (back : high ≤ pos)
    (near : pos + recordSize * bs.length ≤ maxPacketSize) :
    ∃ low', readBatches bytes high bs.length pos low = some (bs, low') := by
  induction bs generalizing pos data low with
  | nil => exact ⟨low, rfl⟩
  | cons b rest ih =>
    obtain ⟨record, later⟩ := holds_append.1 records
    obtain ⟨block, others⟩ := holds_append.1 blocks
    obtain ⟨id, list⟩ := holds_append.1 record
    rw [length_batchRecord] at later
    rw [length_littleEndian] at list
    rw [add_length_commandBlock] at others
    have size : recordSize = 12 := rfl
    have inside := le_batchBlocksEnd (commandsEnd data b.commands) rest
    rw [batchBlocksEnd] at room
    rw [List.length_cons, Nat.mul_succ] at near
    have here : readCommandList bytes (pos + 4) low high =
        some (b.commands, commandsEnd data b.commands) :=
      readCommandList_eq list block free (by omega) (by omega) (by omega)
    obtain ⟨low', there⟩ : ∃ low',
      readBatches bytes high rest.length (pos + recordSize) (commandsEnd data b.commands)
        = some (rest, low') := ih later others (Nat.le_refl _) room (by omega) (by omega)
    refine ⟨low', ?_⟩
    simp [readBatches, here, there, id.word_eq 4 (Nat.le_refl 4) b.id.toNat_lt]

theorem readBatchList_eq {bs : List Batch} {source : Nat}
    (record : Holds bytes source (span source (batchesAt pos bs) bs.length))
    (block : Holds bytes pos (batchBlock pos bs)) (free : low ≤ pos)
    (room : batchesEnd pos bs ≤ high) (back : high ≤ source) (near : source ≤ maxPacketSize) :
    readBatchList bytes source low high = some (bs, batchesEnd pos bs) := by
  obtain ⟨stored, records⟩ := block.batchBlock_parts
  have behind : batchBlocksEnd pos bs ≤ batchesAt pos bs := le_alignUp _ (by decide)
  have start := le_batchBlocksEnd pos bs
  have short := le_recordSize_mul bs.length
  simp only [batchesEnd] at room ⊢
  obtain ⟨target, count⟩ := record.span_eq (by omega) near (by omega)
  obtain ⟨low', batches⟩ : ∃ low',
    readBatches bytes (batchesAt pos bs) bs.length (batchesAt pos bs) low
      = some (bs, low') := readBatches_eq records stored free behind (Nat.le_refl _) (by omega)
  have fit : fits low high (batchesAt pos bs) (recordSize * bs.length) 4 = true :=
    fits_records (by omega) room (alignUp_mod 4 _)
  simp [readBatchList, target, count, fit, batches]

/-! ## Packets -/

theorem readMessage_eq {m : ControlMessage} {order : OrderNumber} {flags : UInt8}
    (tag : Holds bytes pos (littleEndian 4 (messageFields (pos + 4) m).1.toNat))
    (fields : Holds bytes (pos + 4) (messageFields (pos + 4) m).2)
    (block : Holds bytes 0 (bodyBlock (.control ⟨order, flags, m⟩)))
    (room : bodyEnd (.control ⟨order, flags, m⟩) ≤ high) (back : high ≤ pos)
    (near : pos + 4 ≤ maxPacketSize) :
    readMessage bytes pos high = some m := by
  rw [readMessage, tag.wordAt_eq 1 (by decide)]
  cases m with
  | registered id =>
    have word : wordAt bytes (pos + 4) 4 = id.toNat :=
      Holds.word_eq fields 4 (by decide) id.toNat_lt
    simp [messageFields, word]
  | kick reason =>
    have text : readText bytes (pos + 4) 0 high = some reason :=
      readText_eq fields block (Nat.le_refl 0) room (by omega) near
    simp [messageFields, text]
  | servicesReady | confirm => rfl

theorem readBody_eq {root : Nat} {body : Body}
    (fields : Holds bytes (root + 16) (bodyFields root body))
    (block : Holds bytes 0 (bodyBlock body)) (room : bodyEnd body ≤ root)
    (near : root + rootSize ≤ maxPacketSize) :
    readBody bytes root = some body := by
  have size : rootSize = 48 := rfl
  cases body with
  | register hello =>
    simp only [bodyFields, holds_append, length_littleEndian, length_textField, List.length_append,
      inlineSize, Nat.add_assoc, Nat.reduceAdd] at fields
    obtain ⟨⟨⟨⟨tag, nonce⟩, channel⟩, game⟩, version⟩ := fields
    have text : readText bytes (root + 36) 0 root = some hello.game :=
      readText_eq game block (Nat.le_refl 0) room (by omega) (by omega)
    rw [readBody, tag.wordAt_eq 1 (by decide)]
    simp [text, nonce.word_eq 8 (Nat.le_refl 8) hello.nonce.toNat_lt,
      channel.word_eq 1 (by decide) hello.channel.toNat_lt,
      version.word_eq 4 (Nat.le_refl 4) hello.version.toNat_lt]
  | envelope e =>
    simp only [bodyFields, holds_append, length_littleEndian, length_span, List.length_append,
      Nat.add_assoc, Nat.reduceAdd] at fields
    obtain ⟨⟨⟨⟨tag, order⟩, batches⟩, commands⟩, _⟩ := fields
    obtain ⟨history, rest⟩ := holds_append.1 block
    rw [add_length_batchBlock] at rest
    have inside := le_commandsEnd (batchesEnd 0 e.guaranteed) e.unreliable
    have first := readBatchList_eq batches history (Nat.le_refl 0) (Nat.le_trans inside room)
      (by omega) (by omega)
    have second := readCommandList_eq commands rest (Nat.le_refl _) room (by omega) (by omega)
    rw [readBody, tag.wordAt_eq 1 (by decide)]
    simp [first, second, order.word_eq 4 (Nat.le_refl 4) e.order.toNat_lt]
  | control f =>
    simp only [bodyFields, holds_append, length_littleEndian, length_messageFields,
      List.length_append, inlineSize, Nat.add_assoc, Nat.reduceAdd] at fields
    obtain ⟨⟨⟨⟨⟨tag, order⟩, flags⟩, kind⟩, message⟩, _⟩ := fields
    have told : readMessage bytes (root + 28) root = some f.message :=
      readMessage_eq kind message block room (by omega) (by omega)
    rw [readBody, tag.wordAt_eq 1 (by decide)]
    simp [told, order.word_eq 4 (Nat.le_refl 4) f.order.toNat_lt,
      flags.word_eq 1 (by decide) f.flags.toNat_lt]
  | disconnect =>
    simp only [bodyFields, holds_append] at fields
    rw [readBody, fields.1.1.1.wordAt_eq 1 (by decide)]
    rfl

theorem readHeader_eq {root : Nat} {p : Packet} (record : Holds bytes root (rootRecord root p)) :
    readHeader bytes root = p.header := by
  simp only [rootRecord, holds_append, length_littleEndian, List.length_append, Nat.reduceAdd]
    at record
  obtain ⟨⟨⟨magic, version⟩, sequence⟩, _⟩ := record
  simp [readHeader, magic.word_eq 4 (Nat.le_refl 4) p.header.magic.toNat_lt,
    version.word_eq 4 (Nat.le_refl 4) p.header.version.toNat_lt,
    sequence.word_eq 4 (by decide) p.header.sequence.toNat_lt]

/-- A packet that fits into a datagram is read back from what was laid out. -/
theorem decode?_layOut {p : Packet} (small : wireSize p ≤ maxPacketSize) :
    decode? (layOut p) = some p := by
  have size : (layOut p).toArray.size = rootAt p.body + rootSize := length_layOut p
  obtain ⟨block, record⟩ := (holds_toArray (layOut p)).layOut_parts
  have fields : Holds (layOut p).toArray (rootAt p.body + 16) (bodyFields (rootAt p.body) p.body) :=
    (holds_append.1 record).2
  have body := readBody_eq fields block (le_alignUp _ (by decide)) small
  have aligned : rootAt p.body % 8 = 0 := alignUp_mod 8 _
  simp only [decode?, size, Nat.add_sub_cancel, aligned, Nat.le_add_left, decide_true,
    Bool.and_self, if_true, body, Option.map_some, readHeader_eq record]

theorem decode_of_encode_eq_ok {p : Packet} {bytes : List UInt8} (sent : encode p = .ok bytes) :
    bytes = layOut p ∧ decode bytes = .ok p := by
  unfold encode at sent
  split at sent
  case isTrue small =>
    cases sent
    exact ⟨rfl, by rw [decode, decode?_layOut small]⟩
  case isFalse => cases sent

/-- What is sent is understood: the bytes of a packet that is not refused decode to the packet
itself.  A packet is refused for its length only, and just when it is longer than a datagram may
be. -/
theorem decode_of_encode (p : Packet) :
    (∀ bytes, encode p = .ok bytes → bytes = layOut p ∧ decode bytes = .ok p) ∧
    ∀ e, encode p = .error e ↔
    e = .tooLarge (layOut p).length ∧ maxPacketSize < (layOut p).length := by
  refine ⟨fun bytes sent => decode_of_encode_eq_ok sent, fun e => ?_⟩
  rw [length_layOut, encode]
  split
  case isTrue small => exact ⟨nofun, fun ⟨_, large⟩ => absurd small (Nat.not_le_of_lt large)⟩
  case isFalse large =>
    rw [Except.error.injEq, eq_comm]
    exact ⟨fun same => ⟨same, Nat.lt_of_not_le large⟩, fun ⟨same, _⟩ => same⟩

/-- A header of another protocol, an empty batch, an empty payload and an acknowledgement between
messages. -/
theorem decode_of_encode_nested :
    let e : Envelope := ⟨7,
      [⟨4, []⟩, ⟨5, [.message .guaranteed 1 [], .ack 9, .message .unreliable 300 [1, 2, 3]]⟩],
        [.message .guaranteed 2 [255]]⟩
    ∃ bytes, encode ⟨⟨1, 2, 3⟩, .envelope e⟩ = .ok bytes ∧
    decode bytes = .ok ⟨⟨1, 2, 3⟩, .envelope e⟩ :=
  ⟨_, rfl, ((decode_of_encode _).1 _ rfl).2⟩

end DatagramSession.Wire
