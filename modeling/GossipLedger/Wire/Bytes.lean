/-!
# Numbers and texts as bytes

Numbers are written with the least significant byte first (`littleEndian`), texts in UTF-8
(`ofText`).  For the eye bytes are shown in hexadecimal digits (`hex`).  For bytes that are no
UTF-8, `Utf8Fault.ofBytes` says how far they are and what stands there: bytes that no sequence
begins with, or a sequence that the end cuts short.
-/

namespace GossipLedger

namespace Wire

/-- A string of bytes. -/
abbrev Bytes := List UInt8

/-! ### Numbers -/

/-- The lowest `width` bytes of a number, the least significant one first. -/
def littleEndian : (width : Nat) → Nat → Bytes
  | 0, _ => []
  | width + 1, n => UInt8.ofNat n :: littleEndian width (n / 256)

/-- The number that bytes write, the least significant one first. -/
def ofLittleEndian : Bytes → Nat
  | [] => 0
  | b :: rest => b.toNat + 256 * ofLittleEndian rest

theorem length_littleEndian {width n : Nat} : (littleEndian width n).length = width := by
  induction width generalizing n with
  | zero => rfl
  | succ width ih => simp [littleEndian, ih]

theorem ofLittleEndian_littleEndian {width n : Nat} :
    ofLittleEndian (littleEndian width n) = n % Nat.pow 256 width := by
  induction width generalizing n with
  | zero => simp [littleEndian, ofLittleEndian, Nat.mod_one]
  | succ width ih =>
    have hb : (UInt8.ofNat n).toNat = n % 256 := UInt8.toNat_ofNat'
    have hpow : Nat.pow 256 (width + 1) = 256 * Nat.pow 256 width := Nat.mul_comm _ _
    rw [littleEndian, ofLittleEndian, ih, hb, hpow, Nat.mod_mul]

theorem littleEndian_ofLittleEndian {bytes : Bytes} :
    littleEndian bytes.length (ofLittleEndian bytes) = bytes := by
  induction bytes with
  | nil => rfl
  | cons b rest ih =>
    have hb : b.toNat < 256 := b.toNat_lt
    have hdiv : (b.toNat + 256 * ofLittleEndian rest) / 256 = ofLittleEndian rest := by omega
    have hmod : UInt8.ofNat (b.toNat + 256 * ofLittleEndian rest) = b := by
      apply UInt8.toNat.inj
      rw [UInt8.toNat_ofNat']
      omega
    simp only [List.length_cons, littleEndian, ofLittleEndian, hdiv, hmod, ih]

theorem ofLittleEndian_lt {bytes : Bytes} : ofLittleEndian bytes < Nat.pow 256 bytes.length := by
  induction bytes with
  | nil => simp [ofLittleEndian]
  | cons b rest ih =>
    have hb : b.toNat < 256 := b.toNat_lt
    have hpow : Nat.pow 256 (rest.length + 1) = 256 * Nat.pow 256 rest.length := Nat.mul_comm _ _
    rw [ofLittleEndian, List.length_cons, hpow]
    omega

/-! ### Hexadecimal digits -/

/-- Bytes in hexadecimal digits. -/
def hex (bytes : Bytes) : String :=
  .ofList (bytes.flatMap fun b => [Nat.digitChar (b.toNat / 16), Nat.digitChar (b.toNat % 16)])

/-- The value of a hexadecimal digit. -/
def nibble? (ch : Char) : Option UInt8 :=
  if ch.isDigit then some (.ofNat (ch.toNat - '0'.toNat))
  else if 'a' ≤ ch ∧ ch ≤ 'f' then some (.ofNat (ch.toNat - 'a'.toNat + 10))
  else none

/-- Goes on with the digits of more bytes; `bytes` holds those before, the last one first. -/
def ofHexFrom? (bytes : Bytes) : List Char → Option Bytes
  | [] => some bytes.reverse
  | high :: low :: rest => do
    let high ← nibble? high
    let low ← nibble? low
    ofHexFrom? ((high * 16 + low) :: bytes) rest
  | [_] => none

/-- The bytes that hexadecimal digits write, two for each byte. -/
def ofHex? (digits : String) : Option Bytes :=
  ofHexFrom? [] digits.toList

/-! ### Texts -/

/-- The bytes of a text. -/
def ofText (s : String) : Bytes :=
  s.toUTF8.data.toList

/-- The text that bytes write, if they are UTF-8. -/
def text? (bytes : Bytes) : Option String :=
  String.fromUTF8? ⟨bytes.toArray⟩

theorem text?_ofText {s : String} : text? (ofText s) = some s := by
  have h : (⟨(ofText s).toArray⟩ : ByteArray) = s.toByteArray := by
    simp [ofText, String.toUTF8]
  unfold text?
  rw [h, String.fromUTF8?]
  simp [s.isValidUTF8, String.fromUTF8]

theorem ofText_of_text? {bytes : Bytes} {s : String} (h : text? bytes = some s) :
    ofText s = bytes := by
  unfold text? String.fromUTF8? at h
  split at h
  · cases h
    simp [ofText, String.toUTF8, String.fromUTF8]
  · contradiction

/-- Where bytes cease to be UTF-8. -/
structure Utf8Fault where
  /-- The length of the longest beginning that is UTF-8. -/
  index : Nat
  /-- The number of bytes there that no sequence begins with, or nothing if the bytes end inside
  of a sequence. -/
  length : Option Nat
  deriving DecidableEq

namespace Utf8Fault

/-- The least and the greatest byte at a place. -/
abbrev Range := UInt8 × UInt8

/-- Any byte that continues a sequence. -/
def continuation : Range :=
  (0x80, 0xBF)

/-- The bytes that may follow the first byte of a sequence. -/
def followers? (first : UInt8) : Option (List Range) :=
  if first < 0x80 then some []
  else if first < 0xC2 then none
  else if first < 0xE0 then some [continuation]
  else if first = 0xE0 then some [(0xA0, 0xBF), continuation]
  else if first = 0xED then some [(0x80, 0x9F), continuation]
  else if first < 0xF0 then some [continuation, continuation]
  else if first = 0xF0 then some [(0x90, 0xBF), continuation, continuation]
  else if first < 0xF4 then some [continuation, continuation, continuation]
  else if first = 0xF4 then some [(0x80, 0x8F), continuation, continuation]
  else none

/-- Goes on behind `read` bytes of a sequence that begins at `start` and awaits more bytes. -/
def scan (start read : Nat) : (awaited : List Range) → Bytes → Utf8Fault
  | _, [] => ⟨start, none⟩
  | [], b :: rest =>
    match followers? b with
    | some awaited => scan (start + read) 1 awaited rest
    | none => ⟨start + read, some 1⟩
  | range :: awaited, b :: rest =>
    if range.1 ≤ b ∧ b ≤ range.2 then scan start (read + 1) awaited rest
    else ⟨start, some read⟩

/-- Where bytes cease to be UTF-8. -/
def ofBytes (bytes : Bytes) : Utf8Fault :=
  scan 0 0 [] bytes

/-- The text of a fault. -/
def message (fault : Utf8Fault) : String :=
  match fault.length with
  | some n => s!"invalid utf-8 sequence of {n} bytes from index {fault.index}"
  | none => s!"incomplete utf-8 byte sequence from index {fault.index}"

end Utf8Fault

end Wire

end GossipLedger
