import GossipLedger.Proofs.Wire.Streaming

/-!
# Streams that are cut off

A stream of written frames may end at any place.  The frames that stand before the cut as a whole
(`Stream.wholeBefore`) are read in their order, and what becomes of the rest depends on how many
bytes of the next frame are left (`Stream.overhang`): where not even its header is complete, the
stream counts as finished, and otherwise as broken off (`Stream.readAll_take`).

So a reader does not notice every cut.  It takes one inside a header for the end of the stream, and
only there is it mistaken (`Stream.cut_noticed_iff`).
-/

namespace GossipLedger

namespace Wire

namespace Stream

variable {frames : List Frame} {written sent : Bytes} {f : Frame} {n k : Nat}

/-! ### Whole frames -/

/-- The number of bytes of several frames. -/
def extent : List Frame → Nat
  | [] => 0
  | f :: rest => f.size + extent rest

/-- The frames of which all bytes stand before a place. -/
def wholeBefore : Nat → List Frame → List Frame
  | _, [] => []
  | n, f :: rest => if f.size ≤ n then f :: wholeBefore (n - f.size) rest else []

/-- How many bytes stand between the last of these frames and the place. -/
def overhang (n : Nat) (frames : List Frame) : Nat :=
  n - extent (wholeBefore n frames)

/-- The place is one at which a frame begins, or at which the last one ends. -/
def OnBoundary (n : Nat) (frames : List Frame) : Prop :=
  ∃ k, n = extent (frames.take k)

theorem wholeBefore_cons_of_le {rest : List Frame} (h : f.size ≤ n) :
    wholeBefore n (f :: rest) = f :: wholeBefore (n - f.size) rest :=
  if_pos h

theorem wholeBefore_cons_of_lt {rest : List Frame} (h : n < f.size) :
    wholeBefore n (f :: rest) = [] :=
  if_neg (Nat.not_le.2 h)

theorem overhang_cons_of_le {rest : List Frame} (h : f.size ≤ n) :
    overhang n (f :: rest) = overhang (n - f.size) rest := by
  rw [overhang, wholeBefore_cons_of_le h, extent, ← Nat.sub_sub, overhang]

theorem overhang_cons_of_lt {rest : List Frame} (h : n < f.size) : overhang n (f :: rest) = n := by
  rw [overhang, wholeBefore_cons_of_lt h]
  rfl

theorem isPrefix_wholeBefore (n : Nat) (frames : List Frame) : wholeBefore n frames <+: frames := by
  fun_induction wholeBefore n frames with
  | case1 => exact List.prefix_rfl
  | case2 n f rest _ ih => exact (List.prefix_cons_inj f).2 ih
  | case3 => exact List.nil_prefix

/-- A frame is among them exactly if it ends at the place or before. -/
theorem lt_length_wholeBefore_iff : k < (wholeBefore n frames).length ↔
    k < frames.length ∧ extent (frames.take (k + 1)) ≤ n := by
  induction frames generalizing n k with
  | nil => simp [wholeBefore]
  | cons f rest ih =>
    by_cases hf : f.size ≤ n
    · rw [wholeBefore_cons_of_le hf, List.length_cons, List.length_cons]
      cases k with
      | zero => simpa [extent] using hf
      | succ k =>
        rw [Nat.add_lt_add_iff_right, Nat.add_lt_add_iff_right, ih, List.take_succ_cons, extent]
        omega
    · rw [wholeBefore_cons_of_lt (Nat.not_le.1 hf), List.take_succ_cons, extent]
      refine iff_of_false (Nat.not_lt_zero k) fun h => ?_
      omega

theorem onBoundary_cons_iff {rest : List Frame} :
    OnBoundary n (f :: rest) ↔ n = 0 ∨ f.size ≤ n ∧ OnBoundary (n - f.size) rest := by
  constructor
  · rintro ⟨k, hk⟩
    cases k with
    | zero => exact .inl hk
    | succ k =>
      rw [List.take_succ_cons, extent] at hk
      exact .inr ⟨by omega, k, by omega⟩
  · rintro (rfl | ⟨hf, k, hk⟩)
    · exact ⟨0, rfl⟩
    · refine ⟨k + 1, ?_⟩
      rw [List.take_succ_cons, extent]
      omega

/-- Nothing hangs over exactly at the boundaries. -/
theorem overhang_eq_zero_iff (h : n ≤ extent frames) :
    overhang n frames = 0 ↔ OnBoundary n frames := by
  induction frames generalizing n with
  | nil =>
    obtain rfl := Nat.le_zero.1 h
    exact iff_of_true rfl ⟨0, rfl⟩
  | cons f rest ih =>
    rw [onBoundary_cons_iff]
    rcases Nat.lt_or_ge n f.size with hf | hf
    · rw [overhang_cons_of_lt hf, or_iff_left fun hle => Nat.not_le.2 hf hle.1]
    · have hsize : 8 ≤ f.size := Nat.le_add_right ..
      rw [extent] at h
      rw [overhang_cons_of_le hf, ih (by omega), or_iff_right (by omega), and_iff_right hf]

/-! ### What is left of a frame -/

/-- How a stream ends that holds only so many bytes of a frame. -/
def endingAfter (n : Nat) : Ending :=
  if n < headerSize then .finished else .failed brokenOff

theorem length_of_serialize (h : f.serialize = .ok sent) : sent.length = f.size := by
  obtain ⟨-, rfl⟩ := Frame.serialize_eq_ok_iff.1 h
  rw [List.length_append, Header.length_bytes, Frame.size]

/-- What is left of a frame is not read. -/
theorem ends_take (h : f.serialize = .ok sent) (hn : n < f.size) :
    Ends (sent.take n) (endingAfter n) := by
  have hlength : (sent.take n).length = n :=
    List.length_take_of_le (length_of_serialize h ▸ Nat.le_of_lt hn)
  rw [endingAfter]
  split
  · rename_i hshort
    refine .finished ?_
    rw [readFrame, if_pos]
    rw [List.length_take, hlength]
    exact Nat.lt_of_le_of_lt (Nat.min_le_right _ _) hshort
  · rename_i hlong
    -- the header is complete, so the bytes that it announces are expected
    obtain ⟨hsmall, rfl⟩ := Frame.serialize_eq_ok_iff.1 h
    have hbody := Frame.toNat_bodyLength hsmall
    have htake : (f.header.bytes ++ f.body).take n =
        f.header.bytes ++ f.body.take (n - headerSize) := by
      rw [List.take_append, Header.length_bytes, List.take_of_length_le]
      exact Nat.not_lt.1 hlong
    have hbroken : (f.body.take (n - headerSize)).length < f.header.bodyLength.toNat := by
      rw [Frame.size] at hn
      rw [hbody, List.length_take]
      omega
    refine .failed ?_
    rw [htake, readFrame_header rfl (hbody ▸ hsmall), if_pos hbroken]

/-! ### What is read -/

/-- Written frames are delivered up to any place, and then there is only a part of the next. -/
theorem exists_delivers_take {start : Bytes} (h : frames.foldlM write start = .ok written) :
    ∃ added, written = start ++ added ∧ added.length = extent frames ∧ ∀ n ≤ extent frames,
      ∃ rest, Delivers (added.take n) (wholeBefore n frames) rest ∧
        Ends rest (endingAfter (overhang n frames)) := by
  induction frames generalizing start with
  | nil =>
    cases h
    refine ⟨[], (List.append_nil _).symm, rfl, fun n hn => ?_⟩
    obtain rfl := Nat.le_zero.1 hn
    exact ⟨[], .nothing, .finished rfl⟩
  | cons f frames ih =>
    rw [List.foldlM_cons] at h
    obtain ⟨next, hwrite, hrest⟩ := Result.bind_eq_ok_iff.1 h
    obtain ⟨sent, hsent, rfl⟩ := write_eq_ok_iff.1 hwrite
    obtain ⟨added, rfl, hlength, hadded⟩ := ih hrest
    have hsize := length_of_serialize hsent
    refine ⟨sent ++ added, List.append_assoc start sent added, ?_, fun n hn => ?_⟩
    · rw [List.length_append, hsize, hlength, extent]
    rcases Nat.lt_or_ge n f.size with hf | hf
    · rw [wholeBefore_cons_of_lt hf, overhang_cons_of_lt hf,
        List.take_append_of_le_length (hsize ▸ Nat.le_of_lt hf)]
      exact ⟨sent.take n, .nothing, ends_take hsent hf⟩
    · rw [wholeBefore_cons_of_le hf, overhang_cons_of_le hf, List.take_append,
        List.take_of_length_le (hsize ▸ hf), hsize]
      rw [extent] at hn
      obtain ⟨rest, hframes, hend⟩ := hadded (n - f.size) (by omega)
      have hread : readFrame (sent ++ added.take (n - f.size)) =
          .ok (some (f, added.take (n - f.size))) :=
        readFrame_eq_some_iff.2 ⟨sent, Frame.parse_of_serialize hsent, rfl⟩
      exact ⟨rest, .frame hread hframes, hend⟩

theorem length_of_write (h : frames.foldlM write [] = .ok written) :
    written.length = extent frames := by
  obtain ⟨added, rfl, hlength, -⟩ := exists_delivers_take h
  exact hlength

/-- **Of a stream that is cut off, the whole frames are read.**  It counts as finished if not even
the header of the next frame is left, and otherwise as broken off. -/
theorem readAll_take (h : frames.foldlM write [] = .ok written) (hn : n ≤ written.length) :
    readAll (written.take n) = (wholeBefore n frames, endingAfter (overhang n frames)) := by
  rw [length_of_write h] at hn
  obtain ⟨added, rfl, -, hadded⟩ := exists_delivers_take h
  exact readAll_eq_iff.2 (hadded n hn)

/-- The reader is told of the cut: it gets all whole frames, and no other end than an error unless
the cut lies between two frames. -/
structure Noticed (n : Nat) (frames : List Frame) (answer : List Frame × Ending) : Prop where
  /-- The whole frames come in their order. -/
  whole : answer.1 = wholeBefore n frames
  /-- At a boundary the stream is finished. -/
  finished : OnBoundary n frames → answer.2 = .finished
  /-- Inside a frame there is an error. -/
  failed : ¬ OnBoundary n frames → ∃ e, answer.2 = .failed e

/-- An answer that depends only on the bytes after the last whole frame is right where these are no
broken header. -/
theorem noticed_iff (hn : n ≤ extent frames) :
    Noticed n frames (wholeBefore n frames, endingAfter (overhang n frames)) ↔
      (OnBoundary n frames ∨ headerSize ≤ overhang n frames) := by
  have hboundary := overhang_eq_zero_iff hn
  constructor
  · intro h
    by_cases hon : OnBoundary n frames
    · exact .inl hon
    · right
      obtain ⟨e, he⟩ := h.failed hon
      refine Nat.not_lt.1 fun hshort => ?_
      rw [endingAfter, if_pos hshort] at he
      cases he
  · intro h
    refine ⟨rfl, fun hon => ?_, fun hoff => ?_⟩
    · rw [hboundary.2 hon]
      rfl
    · have hlong := h.resolve_left hoff
      exact ⟨brokenOff, if_neg (Nat.not_lt.2 hlong)⟩

/-- **A reader notices every cut that does not fall into a header.**  Wherever the bytes of written
frames are cut off, it gets the frames that end before the cut; it is told the truth about the end
of the stream exactly if the cut lies between two frames or behind the header of one. -/
theorem cut_noticed_iff (h : frames.foldlM write [] = .ok written) (hn : n ≤ written.length) :
    (wholeBefore n frames <+: frames ∧ ∀ k, k < (wholeBefore n frames).length ↔
      k < frames.length ∧ extent (frames.take (k + 1)) ≤ n) ∧
    readAll (written.take n) = (wholeBefore n frames, endingAfter (overhang n frames)) ∧
    (Noticed n frames (readAll (written.take n)) ↔
      (OnBoundary n frames ∨ headerSize ≤ overhang n frames)) := by
  have hread := readAll_take h hn
  refine ⟨⟨isPrefix_wholeBefore n frames, fun _ => lt_length_wholeBefore_iff⟩, hread, ?_⟩
  rw [hread, noticed_iff (length_of_write h ▸ hn)]

/-- An answer with three bytes, and a question with four. -/
def answerAndQuestion : List Frame :=
  [⟨.ack, [1, 2, 3]⟩, ⟨.balance, [0, 0, 0, 0]⟩]

/-- A cut between the third and the fourth byte of the question. -/
theorem cut_in_body_noticed : ∃ written, answerAndQuestion.foldlM write [] = .ok written ∧
    22 ≤ written.length ∧ Noticed 22 answerAndQuestion (readAll (written.take 22)) := by
  obtain ⟨written, hwrite, hlength⟩ : ∃ written,
      answerAndQuestion.foldlM write [] = .ok written ∧ 22 ≤ written.length :=
    ⟨_, rfl, by decide⟩
  exact ⟨written, hwrite, hlength, (cut_noticed_iff hwrite hlength).2.2.2 (.inr (by decide))⟩

/-- A cut in the middle of its header is taken for the end of the stream. -/
theorem cut_in_header_missed : ∃ written, answerAndQuestion.foldlM write [] = .ok written ∧
    15 ≤ written.length ∧ readAll (written.take 15) = ([⟨.ack, [1, 2, 3]⟩], .finished) ∧
    ¬ Noticed 15 answerAndQuestion (readAll (written.take 15)) := by
  refine ⟨_, rfl, by decide, rfl, fun h => ?_⟩
  have hoff : ¬ OnBoundary 15 answerAndQuestion := by
    rw [← overhang_eq_zero_iff (by decide)]
    decide
  obtain ⟨e, he⟩ := h.failed hoff
  cases he

end Stream

end Wire

end GossipLedger
