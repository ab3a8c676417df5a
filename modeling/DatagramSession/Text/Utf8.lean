/-!
# Text as bytes

`encode` and `decode?` go between texts and well-formed UTF-8.  `decodeLossy` reads any bytes: it
puts one replacement character in place of each maximal piece that begins a character but does not
complete it, and of each byte that cannot begin one.
-/
namespace DatagramSession.Utf8

def encode (s : String) : List UInt8 :=
  s.toUTF8.data.toList

/-- The text of some bytes, if they are well-formed. -/
def decode? (bytes : List UInt8) : Option String :=
  String.fromUTF8? ⟨bytes.toArray⟩

@[simp] theorem length_encode (s : String) : (encode s).length = s.utf8ByteSize := by
  simp [encode]

theorem decode?_encode (s : String) : decode? (encode s) = some s := by
  have h : ByteArray.IsValidUTF8 ⟨(encode s).toArray⟩ := by
    simpa [encode] using s.isValidUTF8
  rw [decode?, String.fromUTF8?, dif_pos h]
  rfl

theorem encode_of_decode? {bytes : List UInt8} {s : String} (h : decode? bytes = some s) :
    encode s = bytes := by
  unfold decode? String.fromUTF8? at h
  split at h
  · cases h
    rfl
  · cases h

theorem encode_eq (s : String) : encode s = s.toList.flatMap String.utf8EncodeChar := by
  rw [encode, String.toUTF8, ← String.utf8Encode_toList, List.utf8Encode, List.data_toByteArray]

/-- A character starts with no continuation byte, and none of its bytes is as large as 248. -/
theorem bytes_utf8EncodeChar (c : Char) : ∃ b rest, String.utf8EncodeChar c = b :: rest ∧
    (b.toNat < 128 ∨ 192 ≤ b.toNat) ∧ ∀ b' ∈ b :: rest, b'.toNat < 248 := by
  fun_cases String.utf8EncodeChar c
  all_goals
    refine ⟨_, _, rfl, ?_, ?_⟩
    · simp only [UInt8.toNat_ofNat']
      omega
    · simp only [List.mem_cons, List.not_mem_nil, or_false, forall_eq_or_imp, forall_eq,
        UInt8.toNat_ofNat']
      omega

theorem lt_of_mem_encode {s : String} {b : UInt8} (h : b ∈ encode s) : b.toNat < 248 := by
  rw [encode_eq] at h
  obtain ⟨c, _, hb⟩ := List.mem_flatMap.1 h
  obtain ⟨first, rest, bytes, _, small⟩ := bytes_utf8EncodeChar c
  exact small b (bytes ▸ hb)

/-- No text starts with a continuation byte. -/
theorem head_encode {s : String} {b : UInt8} {rest : List UInt8} (h : encode s = b :: rest) :
    b.toNat < 128 ∨ 192 ≤ b.toNat := by
  rw [encode_eq] at h
  cases chars : s.toList with
  | nil =>
    rw [chars] at h
    cases h
  | cons c more =>
    obtain ⟨first, others, bytes, lead, _⟩ := bytes_utf8EncodeChar c
    rw [chars, List.flatMap_cons, bytes, List.cons_append] at h
    cases h
    exact lead

/-! ## Bytes that may not be well-formed -/

/-- A character of which some bytes are still to come; the next one must lie between two bounds. -/
structure Begun where
  value : Nat
  owed : Nat
  low : UInt8 := 0x80
  high : UInt8 := 0xBF
  deriving DecidableEq, Repr

/-- What a byte means where a character may begin. -/
inductive Lead where
  | whole (c : Char)
  | begun (b : Begun)
  | stray
  deriving DecidableEq

/-- The first byte fixes how many bytes follow.  The bounds on the second byte rule out longer forms
than needed, surrogates and numbers past the last code point. -/
def lead (b : UInt8) : Lead :=
  if b < 0x80 then .whole (Char.ofNat b.toNat)
  else if b < 0xC2 then .stray
  else if b < 0xE0 then .begun { value := b.toNat % 32, owed := 1 }
  else if b = 0xE0 then .begun { value := 0, owed := 2, low := 0xA0 }
  else if b = 0xED then .begun { value := 13, owed := 2, high := 0x9F }
  else if b < 0xF0 then .begun { value := b.toNat % 16, owed := 2 }
  else if b = 0xF0 then .begun { value := 0, owed := 3, low := 0x90 }
  else if b < 0xF4 then .begun { value := b.toNat % 8, owed := 3 }
  else if b = 0xF4 then .begun { value := 4, owed := 3, high := 0x8F }
  else .stray

/-- What stands for bytes that are no character. -/
def replacement : Char := '\ufffd'

/-- What has been read: the characters so far, last first, and the beginning of one more. -/
structure Progress where
  found : List Char := []
  begun : Option Begun := none
  deriving DecidableEq

namespace Progress

/-- Takes a byte where a character may begin. -/
def start (p : Progress) (b : UInt8) : Progress :=
  match lead b with
  | .whole c => ⟨c :: p.found, none⟩
  | .begun begun => ⟨p.found, some begun⟩
  | .stray => ⟨replacement :: p.found, none⟩

/-- Gives up on a character that was begun. -/
def giveUp (p : Progress) : Progress :=
  if p.begun.isSome then ⟨replacement :: p.found, none⟩ else p

/-- Takes one byte.  A byte that does not fit what was begun may begin a character itself. -/
def step (p : Progress) (b : UInt8) : Progress :=
  match p.begun with
  | none => p.start b
  | some begun =>
    if begun.low ≤ b && b ≤ begun.high then
      let value := begun.value * 64 + b.toNat % 64
      if begun.owed ≤ 1 then ⟨Char.ofNat value :: p.found, none⟩
      else ⟨p.found, some { value, owed := begun.owed - 1 }⟩
    else p.giveUp.start b

end Progress

/-- The text of any bytes. -/
def decodeLossy (bytes : List UInt8) : String :=
  String.ofList (bytes.foldl Progress.step {}).giveUp.found.reverse

end DatagramSession.Utf8
