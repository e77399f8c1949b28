import GossipLedger.Proofs.Wire.Reading

/-!
# The bytes of frames

`Frame.parse` and `Frame.serialize` are the two directions of one correspondence between the frames
whose bodies are not too large and the bytes that look like a frame:

* `Header.parse_eq_ok_iff` : a header is read where the bytes begin with those of the header;
* `Frame.parse_eq_ok_iff` : bytes parse to a frame exactly if the frame is serialized to them;
* `framed_of_parse` and `exists_parse_of_framed` : which bytes these are, place by place (`Framed`).

The length of a body is written in four bytes.  A body that has passed the check for its size has
a length that fits into them (`Frame.toNat_bodyLength`), so none is cut off.
-/

namespace GossipLedger

namespace Wire

variable {bytes : Bytes}

/-! ### Headers -/

namespace Header

variable {h : Header}

/-- What was read as a header is the bytes of that header, in the version that is in use. -/
theorem bytes_of_parse (hparse : parse bytes = .ok h) :
    h.version = wireVersion ∧ h.bytes <+: bytes := by
  revert hparse
  fun_cases parse bytes
  case case5 m₁ m₂ version kindByte l₀ l₁ l₂ l₃ rest hmagic hversion kind hkind size hsize =>
    intro hparse
    cases hparse
    have hfixed : (m₁, m₂) = magic := Decidable.not_not.1 hmagic
    have hbyte : kind.byte = kindByte := MessageKind.byte_of_ofByte? hkind
    have hfits := toNat_ofNat_of_le_maxBodySize (Nat.not_lt.1 hsize)
    -- four bytes write each number of four bytes in only one way
    have hlength : littleEndian 4 size = [l₀, l₁, l₂, l₃] :=
      @littleEndian_ofLittleEndian [l₀, l₁, l₂, l₃]
    refine ⟨Decidable.not_not.1 hversion, rest, ?_⟩
    rw [bytes, ← hfixed, hbyte, hfits, hlength]
    rfl
  all_goals intro hparse; cases hparse

/-- **A header is read exactly where its bytes stand**, if its version is in use and the body that
it announces is not too large. -/
theorem parse_eq_ok_iff : parse bytes = .ok h ↔
    h.version = wireVersion ∧ h.bodyLength.toNat ≤ maxBodySize ∧ h.bytes <+: bytes := by
  constructor
  · intro hparse
    obtain ⟨hversion, hbytes⟩ := bytes_of_parse hparse
    exact ⟨hversion, bodyLength_of_parse hparse, hbytes⟩
  · rintro ⟨hversion, hsmall, rest, rfl⟩
    exact parse_bytes hversion hsmall

end Header

/-! ### Frames -/

namespace Frame

variable {f : Frame}

theorem serialize_eq_ok_iff : f.serialize = .ok bytes ↔
    f.body.length ≤ maxBodySize ∧ bytes = f.header.bytes ++ f.body := by
  rw [serialize]
  split
  · rename_i hlarge
    refine iff_of_false (fun h => ?_) fun h => Nat.not_le.2 hlarge h.1
    cases h
  · rename_i hsmall
    rw [Except.ok.injEq, eq_comm, and_iff_right (Nat.not_lt.1 hsmall)]

/-- The header of what parses is the one that the frame is given. -/
theorem header_of_parse (h : parse bytes = .ok f) : Header.parse bytes = .ok f.header := by
  obtain ⟨header, hparse, hlength, rfl⟩ := exists_header_of_parse h
  have hversion : header.version = wireVersion := (Header.bytes_of_parse hparse).1
  have hbody : UInt32.ofNat (bytes.drop headerSize).length = header.bodyLength := by
    rw [List.length_drop, hlength, Nat.add_sub_cancel_left, UInt32.ofNat_toNat]
  have hheader : Frame.header ⟨header.kind, bytes.drop headerSize⟩ = header := by
    rw [Frame.header, hbody, ← hversion]
  rw [hheader]
  exact hparse

theorem serialize_of_parse (h : parse bytes = .ok f) : f.serialize = .ok bytes := by
  obtain ⟨-, rest, hrest⟩ := Header.bytes_of_parse (header_of_parse h)
  obtain ⟨header, -, -, hf⟩ := exists_header_of_parse h
  have hbody : f.body = rest := by
    rw [hf, ← hrest, ← Header.length_bytes (h := f.header), List.drop_left]
  exact serialize_eq_ok_iff.2 ⟨length_body_of_parse h, by rw [hbody, hrest]⟩

/-- **Bytes parse to a frame exactly if the frame is serialized to them.** -/
theorem parse_eq_ok_iff : parse bytes = .ok f ↔ f.serialize = .ok bytes :=
  ⟨serialize_of_parse, parse_of_serialize⟩

end Frame

/-! ### What the bytes of a frame look like -/

/-- The bytes are those of a frame, as far as one can tell from each place. -/
structure Framed (bytes : Bytes) : Prop where
  /-- There is room for a header. -/
  whole : headerSize ≤ bytes.length
  /-- The first two bytes are those that every header begins with. -/
  fixed : bytes.take 2 = [magic.1, magic.2]
  /-- The third is the version that is in use. -/
  version : bytes[2]? = some wireVersion
  /-- The fourth stands for a kind. -/
  kind : ∃ kind : MessageKind, bytes[3]? = some kind.byte
  /-- The next four tell how many bytes follow the header. -/
  length : ofLittleEndian ((bytes.drop 4).take 4) = bytes.length - headerSize
  /-- These are not too many. -/
  small : bytes.length - headerSize ≤ maxBodySize

theorem framed_of_parse {f : Frame} (h : Frame.parse bytes = .ok f) : Framed bytes := by
  obtain ⟨hsmall, rfl⟩ := Frame.serialize_eq_ok_iff.1 (Frame.serialize_of_parse h)
  have hlength : (f.header.bytes ++ f.body).length - headerSize = f.body.length := by
    rw [List.length_append, Header.length_bytes, Nat.add_sub_cancel_left]
  constructor
  case whole => simp [Header.length_bytes]
  case fixed => rfl
  case version => rfl
  case kind => exact ⟨f.kind, rfl⟩
  case length =>
    have hfield : ((f.header.bytes ++ f.body).drop 4).take 4 =
        littleEndian 4 f.header.bodyLength.toNat := rfl
    rw [hfield, ofLittleEndian_toNat, Frame.toNat_bodyLength hsmall, hlength]
  case small => rwa [hlength]

theorem exists_parse_of_framed (h : Framed bytes) : ∃ f, Frame.parse bytes = .ok f := by
  obtain ⟨kind, hkind⟩ := h.kind
  let f : Frame := ⟨kind, bytes.drop headerSize⟩
  have hbody : f.body.length = bytes.length - headerSize := List.length_drop
  have hsmall : f.body.length ≤ maxBodySize := hbody ▸ h.small
  have hlength : littleEndian 4 f.header.bodyLength.toNat = (bytes.drop 4).take 4 := by
    have hwidth : ((bytes.drop 4).take 4).length = 4 := by
      have hwhole : 8 ≤ bytes.length := h.whole
      rw [List.length_take, List.length_drop]
      omega
    have hfield := @littleEndian_ofLittleEndian ((bytes.drop 4).take 4)
    rwa [hwidth, h.length, ← hbody, ← Frame.toNat_bodyLength hsmall] at hfield
  have hrest : bytes.drop 4 = littleEndian 4 f.header.bodyLength.toNat ++ f.body := by
    have hsplit := List.take_append_drop 4 (bytes.drop 4)
    rw [List.drop_drop, ← hlength] at hsplit
    exact hsplit.symm
  have hbytes : bytes = f.header.bytes ++ f.body := by
    calc bytes = bytes.take 2 ++ bytes.drop 2 := (List.take_append_drop 2 bytes).symm
      _ = [magic.1, magic.2] ++ wireVersion :: kind.byte :: bytes.drop 4 := by
        rw [h.fixed, List.drop_eq_getElem?_toList_append, h.version,
          List.drop_eq_getElem?_toList_append, hkind]
        rfl
      _ = f.header.bytes ++ f.body := by
        rw [hrest]
        rfl
  exact ⟨f, Frame.parse_of_serialize (Frame.serialize_eq_ok_iff.2 ⟨hsmall, hbytes⟩)⟩

/-- **Frames and the bytes of frames are in bijection.**  A frame has bytes exactly if its body is
not too large, and these are the bytes with a header that is in use and as many bytes behind it as
it announces. -/
theorem frames_bijective :
    (∀ bytes f, Frame.parse bytes = .ok f ↔ f.serialize = .ok bytes) ∧
      (∀ f : Frame, (∃ bytes, f.serialize = .ok bytes) ↔ f.body.length ≤ maxBodySize) ∧
      ∀ bytes, (∃ f, Frame.parse bytes = .ok f) ↔ Framed bytes :=
  ⟨fun _ _ => Frame.parse_eq_ok_iff, fun _ => Frame.exists_serialize_iff,
    fun _ => ⟨fun ⟨_, h⟩ => framed_of_parse h, exists_parse_of_framed⟩⟩

end Wire

end GossipLedger
