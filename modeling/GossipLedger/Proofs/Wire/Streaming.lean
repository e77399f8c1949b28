import GossipLedger.Proofs.Wire.Framing
import GossipLedger.Wire.Stream

/-!
# Frame after frame

A stream is read header by header and body by body, a frame on its own as a whole.  Both come to
the same: the next frame of a stream is what the bytes parse to that are taken off
(`Stream.readFrame_eq_some_iff`).  So a reader stays in step with the writer:

* `Stream.delivers_iff` : a stream delivers some frames and goes on with a rest exactly if it begins
  with what is written for these frames (`Stream.Delivers`);
* `Stream.readAll_eq_iff` : all frames of a stream are those up to the first place where it ends or
  cannot be read (`Stream.Ends`).

Nothing is assumed of the bodies.  One that looks like a header is passed over as a whole.
-/

namespace GossipLedger

namespace Wire

namespace Stream

variable {stream rest written : Bytes} {f : Frame} {frames : List Frame} {ending : Ending}

/-! ### One frame -/

/-- Behind a header in use come the bytes that it announces, or the stream is broken off. -/
theorem readFrame_header {h : Header} (hversion : h.version = wireVersion)
    (hsmall : h.bodyLength.toNat ≤ maxBodySize) : readFrame (h.bytes ++ rest) =
      if rest.length < h.bodyLength.toNat then .error brokenOff
      else .ok (some (⟨h.kind, rest.take h.bodyLength.toNat⟩, rest.drop h.bodyLength.toNat)) := by
  have htake : (h.bytes ++ rest).take headerSize = h.bytes := List.take_left' Header.length_bytes
  have hdrop : (h.bytes ++ rest).drop headerSize = rest := List.drop_left' Header.length_bytes
  have hparse : Header.parse h.bytes = .ok h := by
    have hbytes := @Header.parse_bytes h [] hversion hsmall
    rwa [List.append_nil] at hbytes
  rw [readFrame, htake, Header.length_bytes, if_neg (Nat.lt_irrefl headerSize), hparse]
  dsimp only [bind, Except.bind]
  rw [hdrop, List.length_take]
  by_cases hshort : rest.length < h.bodyLength.toNat
  · rw [if_pos hshort, if_pos (Nat.lt_of_le_of_lt (Nat.min_le_right _ _) hshort)]
  · have hlength : (rest.take h.bodyLength.toNat).length = h.bodyLength.toNat :=
      List.length_take_of_le (Nat.not_lt.1 hshort)
    have hparts : Frame.ofParts h (rest.take h.bodyLength.toNat) =
        .ok ⟨h.kind, rest.take h.bodyLength.toNat⟩ := if_neg fun hne => hne hlength
    rw [if_neg hshort, if_neg (by omega), hparts]
    dsimp only [pure, Except.pure]
    rw [Frame.size, hlength, ← List.drop_drop, hdrop]

/-- A frame is read only behind a header in use. -/
theorem exists_header_of_readFrame (h : readFrame stream = .ok (some (f, rest))) :
    ∃ (header : Header) (tail : Bytes), header.version = wireVersion ∧
      header.bodyLength.toNat ≤ maxBodySize ∧ stream = header.bytes ++ tail := by
  rw [readFrame] at h
  split at h
  · cases h
  · obtain ⟨header, hparse, -⟩ := Result.bind_eq_ok_iff.1 h
    obtain ⟨hversion, hsmall, hbytes⟩ := Header.parse_eq_ok_iff.1 hparse
    obtain ⟨tail, htail⟩ := hbytes.trans (List.take_prefix _ _)
    exact ⟨header, tail, hversion, hsmall, htail.symm⟩

/-- **The next frame of a stream is what the bytes parse to that are taken off.** -/
theorem readFrame_eq_some_iff : readFrame stream = .ok (some (f, rest)) ↔
    ∃ used, Frame.parse used = .ok f ∧ stream = used ++ rest := by
  constructor
  · intro h
    obtain ⟨header, tail, hversion, hsmall, rfl⟩ := exists_header_of_readFrame h
    rw [readFrame_header hversion hsmall] at h
    split at h
    · cases h
    · rename_i hlong
      cases h
      have hlength : (tail.take header.bodyLength.toNat).length = header.bodyLength.toNat :=
        List.length_take_of_le (Nat.not_lt.1 hlong)
      refine ⟨header.bytes ++ tail.take header.bodyLength.toNat, ?_, ?_⟩
      · rw [Frame.parse_eq_ok_iff, Frame.serialize_eq_ok_iff]
        refine ⟨Nat.le_trans (Nat.le_of_eq hlength) hsmall, ?_⟩
        rw [Frame.header, hlength, UInt32.ofNat_toNat, ← hversion]
      · rw [List.append_assoc, List.take_append_drop]
  · rintro ⟨used, hparse, rfl⟩
    obtain ⟨hsmall, rfl⟩ := Frame.serialize_eq_ok_iff.1 (Frame.serialize_of_parse hparse)
    have hlength := Frame.toNat_bodyLength hsmall
    have hlong : ¬ (f.body ++ rest).length < f.header.bodyLength.toNat := by
      rw [List.length_append, hlength]
      omega
    rw [List.append_assoc, readFrame_header rfl (hlength ▸ hsmall), if_neg hlong, hlength,
      List.take_left, List.drop_left]
    rfl

/-! ### Several frames -/

/-- Reading frame after frame gives these frames, and the rest is still to be read. -/
inductive Delivers : Bytes → List Frame → Bytes → Prop where
  /-- Nothing has been read. -/
  | nothing {stream : Bytes} : Delivers stream [] stream
  /-- One frame is read, and others behind it. -/
  | frame {stream next rest : Bytes} {f : Frame} {frames : List Frame}
    (h : readFrame stream = .ok (some (f, next))) (hnext : Delivers next frames rest) :
    Delivers stream (f :: frames) rest

theorem Delivers.trans {middle : Bytes} {others : List Frame} (h : Delivers stream frames middle)
    (hmiddle : Delivers middle others rest) : Delivers stream (frames ++ others) rest := by
  induction h with
  | nothing => exact hmiddle
  | frame hread _ ih => exact .frame hread (ih hmiddle)

theorem write_eq_ok_iff : write stream f = .ok written ↔
    ∃ sent, f.serialize = .ok sent ∧ written = stream ++ sent := by
  rw [write, Result.bind_eq_ok_iff]
  simp only [pure, Except.pure, Except.ok.injEq, eq_comm]

/-- What is written onto a stream is delivered behind it, whatever follows. -/
theorem delivers_of_write {start : Bytes} (h : frames.foldlM write start = .ok written) :
    ∃ added, written = start ++ added ∧ ∀ rest, Delivers (added ++ rest) frames rest := by
  induction frames generalizing start with
  | nil =>
    cases h
    exact ⟨[], (List.append_nil _).symm, fun rest => .nothing⟩
  | cons f frames ih =>
    rw [List.foldlM_cons] at h
    cases hwrite : write start f with
    | error e =>
      rw [hwrite] at h
      cases h
    | ok next =>
      rw [hwrite] at h
      obtain ⟨sent, hsent, rfl⟩ := write_eq_ok_iff.1 hwrite
      obtain ⟨added, rfl, hadded⟩ := ih h
      refine ⟨sent ++ added, List.append_assoc start sent added, fun rest => ?_⟩
      have hread : readFrame (sent ++ added ++ rest) = .ok (some (f, added ++ rest)) :=
        readFrame_eq_some_iff.2 ⟨sent, Frame.parse_of_serialize hsent, List.append_assoc _ _ _⟩
      exact .frame hread (hadded rest)

/-- What has been delivered can be written again, onto any stream, and is then what was read. -/
theorem Delivers.write (h : Delivers stream frames rest) : ∃ added, stream = added ++ rest ∧
    ∀ start, frames.foldlM Stream.write start = .ok (start ++ added) := by
  induction h with
  | nothing => exact ⟨[], rfl, fun start => by rw [List.append_nil]; rfl⟩
  | @frame stream next rest f frames hread _ ih =>
    obtain ⟨used, hparse, rfl⟩ := readFrame_eq_some_iff.1 hread
    obtain ⟨added, rfl, hadded⟩ := ih
    refine ⟨used ++ added, (List.append_assoc used added rest).symm, fun start => ?_⟩
    have hwrite : Stream.write start f = .ok (start ++ used) :=
      write_eq_ok_iff.2 ⟨used, Frame.serialize_of_parse hparse, rfl⟩
    rw [List.foldlM_cons, hwrite]
    exact (hadded (start ++ used)).trans (by rw [List.append_assoc])

/-- **A stream delivers frames exactly if it begins with what is written of them.** -/
theorem delivers_iff : Delivers stream frames rest ↔
    ∃ written, frames.foldlM write [] = .ok written ∧ stream = written ++ rest := by
  constructor
  · intro h
    obtain ⟨added, hstream, hwrite⟩ := h.write
    exact ⟨added, hwrite [], hstream⟩
  · rintro ⟨written, hwrite, rfl⟩
    obtain ⟨added, rfl, hadded⟩ := delivers_of_write hwrite
    exact hadded rest

/-! ### All frames -/

/-- No frame can be read, for the reason that is given. -/
inductive Ends : Bytes → Ending → Prop where
  /-- No header is left. -/
  | finished {stream : Bytes} (h : readFrame stream = .ok none) : Ends stream .finished
  /-- There is no frame in use, or it is broken off. -/
  | failed {stream : Bytes} {e : LedgerError} (h : readFrame stream = .error e) :
    Ends stream (.failed e)

theorem exists_delivers (stream : Bytes) :
    ∃ frames rest ending, Delivers stream frames rest ∧ Ends rest ending := by
  induction hn : stream.length using Nat.strongRecOn generalizing stream with
  | ind n ih =>
    cases hread : readFrame stream with
    | error e => exact ⟨[], stream, .failed e, .nothing, .failed hread⟩
    | ok next =>
      cases next with
      | none => exact ⟨[], stream, .finished, .nothing, .finished hread⟩
      | some next =>
        obtain ⟨f, next⟩ := next
        obtain ⟨used, hparse, rfl⟩ := readFrame_eq_some_iff.1 hread
        have hsize : 8 ≤ used.length := (framed_of_parse hparse).whole
        have hlt : next.length < n := by
          rw [List.length_append] at hn
          omega
        obtain ⟨frames, rest, ending, hframes, hend⟩ := ih _ hlt next rfl
        exact ⟨f :: frames, rest, ending, .frame hread hframes, hend⟩

/-- There is no frame without a header. -/
theorem Delivers.length_mul_le (h : Delivers stream frames rest) :
    frames.length * headerSize ≤ stream.length := by
  induction h with
  | nothing => exact Nat.zero_mul _ ▸ Nat.zero_le _
  | frame hread _ ih =>
    obtain ⟨used, hparse, rfl⟩ := readFrame_eq_some_iff.1 hread
    have hsize := (framed_of_parse hparse).whole
    rw [List.length_cons, Nat.succ_mul, List.length_append]
    omega

theorem Delivers.length_lt (h : Delivers stream frames rest) :
    frames.length < stream.length / headerSize + 1 :=
  Nat.lt_succ_of_le ((Nat.le_div_iff_mul_le (by decide)).2 h.length_mul_le)

/-- A bound on the number of frames that is above their number does not matter. -/
theorem readUpTo_eq {bound : Nat} {earlier : List Frame} (h : Delivers stream frames rest)
    (hend : Ends rest ending) (hbound : frames.length < bound) :
    readUpTo bound earlier stream = (earlier.reverse ++ frames, ending) := by
  induction h generalizing bound earlier with
  | nothing =>
    obtain ⟨bound, rfl⟩ := Nat.exists_eq_succ_of_ne_zero (Nat.ne_of_gt hbound)
    cases hend with
    | finished hread => rw [readUpTo, hread, List.append_nil]
    | failed hread => rw [readUpTo, hread, List.append_nil]
  | @frame stream next rest f frames hread _ ih =>
    obtain ⟨bound, rfl⟩ := Nat.exists_eq_succ_of_ne_zero (Nat.ne_zero_of_lt hbound)
    rw [readUpTo, hread]
    dsimp only
    rw [ih hend (Nat.lt_of_succ_lt_succ hbound), List.reverse_cons, List.append_assoc]
    rfl

/-- **All frames of a stream are those up to the first place where none can be read.** -/
theorem readAll_eq_iff : readAll stream = (frames, ending) ↔
    ∃ rest, Delivers stream frames rest ∧ Ends rest ending := by
  have heq : ∀ {frames rest ending}, Delivers stream frames rest → Ends rest ending →
      readAll stream = (frames, ending) :=
    fun h hend => readUpTo_eq h hend h.length_lt
  constructor
  · intro h
    obtain ⟨_, rest, _, hframes, hend⟩ := exists_delivers stream
    rw [heq hframes hend] at h
    cases h
    exact ⟨rest, hframes, hend⟩
  · rintro ⟨rest, hframes, hend⟩
    exact heq hframes hend

theorem exists_ends_readAll (stream : Bytes) :
    ∃ rest, Delivers stream (readAll stream).1 rest ∧ Ends rest (readAll stream).2 :=
  readAll_eq_iff.1 rfl

theorem Delivers.readAll_eq (h : Delivers stream frames rest) :
    readAll stream = (frames ++ (readAll rest).1, (readAll rest).2) := by
  obtain ⟨final, hrest, hend⟩ := exists_ends_readAll rest
  exact readAll_eq_iff.2 ⟨final, h.trans hrest, hend⟩

/-! ### Readers and writers in step -/

/-- The next frame of the stream is read, and this takes off so many bytes. -/
def Consumes (stream : Bytes) (n : Nat) (f : Frame) : Prop :=
  ∃ used rest, readFrame stream = .ok (some (f, rest)) ∧ stream = used ++ rest ∧ used.length = n

theorem consumes_iff {n : Nat} :
    Consumes stream n f ↔ n ≤ stream.length ∧ Frame.parse (stream.take n) = .ok f := by
  constructor
  · rintro ⟨used, rest, hread, rfl, rfl⟩
    obtain ⟨_, hparse, hused⟩ := readFrame_eq_some_iff.1 hread
    cases List.append_cancel_right hused
    rw [List.length_append, List.take_left]
    exact ⟨Nat.le_add_right _ _, hparse⟩
  · rintro ⟨hn, hparse⟩
    have hstream := (List.take_append_drop n stream).symm
    exact ⟨stream.take n, stream.drop n, readFrame_eq_some_iff.2 ⟨_, hparse, hstream⟩, hstream,
      List.length_take_of_le hn⟩

/-- **A reader stays in step with the writer.**  A read takes off just the bytes that parse to the
frame, so all frames that were written come back in their order, and what follows them is what is
read next. -/
theorem reader_in_step :
    (∀ stream n f, Consumes stream n f ↔ n ≤ stream.length ∧ Frame.parse (stream.take n) = .ok f) ∧
      ∀ frames written, frames.foldlM write [] = .ok written → ∀ rest,
        Delivers (written ++ rest) frames rest ∧
          readAll (written ++ rest) = (frames ++ (readAll rest).1, (readAll rest).2) := by
  refine ⟨fun _ _ _ => consumes_iff, fun frames written hwrite rest => ?_⟩
  have hdelivers : Delivers (written ++ rest) frames rest := delivers_iff.2 ⟨written, hwrite, rfl⟩
  exact ⟨hdelivers, hdelivers.readAll_eq⟩

/-- A frame without a body, and one whose body is the header of a third. -/
def nestedFrames : List Frame :=
  [⟨.activate, []⟩, ⟨.balance, (Frame.header ⟨.transferTo, [0, 0]⟩).bytes⟩]

/-- They come back, although less than a header follows them. -/
theorem nestedFrames_in_step : ∃ written, nestedFrames.foldlM write [] = .ok written ∧
    Delivers (written ++ [0x4C]) nestedFrames [0x4C] ∧
    readAll (written ++ [0x4C]) = (nestedFrames, .finished) := by
  obtain ⟨written, hwrite⟩ : ∃ written, nestedFrames.foldlM write [] = .ok written := ⟨_, rfl⟩
  obtain ⟨hdelivers, hall⟩ := reader_in_step.2 nestedFrames written hwrite [0x4C]
  exact ⟨written, hwrite, hdelivers, hall⟩

end Stream

end Wire

end GossipLedger
