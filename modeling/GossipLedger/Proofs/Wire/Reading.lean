import GossipLedger.Proofs.Wire.Writing

/-!
# What is read

`Read.Reads` says that a read takes back what an encoding wrote, whatever follows it.  It holds of
all fields with which messages begin (`Read.reads_string`, `Read.reads_clock`), and so a frame is
parsed to itself (`Frame.parse_of_serialize`).
-/

namespace GossipLedger

/-- What is done in two steps succeeds exactly if both do. -/
theorem Result.bind_eq_ok_iff {α β : Type} {first : Result α} {next : α → Result β} {b : β} :
    (first >>= next) = .ok b ↔ ∃ a, first = .ok a ∧ next a = .ok b := by
  cases first <;> simp [bind, Except.bind]

namespace Wire

namespace Read

variable {α β : Type} {read : Read α} {f : α → Read β} {r r' : Reader} {a : α} {e : LedgerError}

/-! ### Steps of a read -/

theorem runFrom_pure : (pure a : Read α).runFrom r = (.ok a, r) :=
  rfl

theorem runFrom_bind : (read >>= f).runFrom r =
    match read.runFrom r with
    | (.ok a, r') => (f a).runFrom r'
    | (.error e, r') => (.error e, r') := by
  unfold runFrom ExceptT.run
  simp only [bind, ExceptT.bind, ExceptT.mk, StateT.bind, ExceptT.bindCont]
  rcases read r with ⟨_ | _, _⟩ <;> rfl

theorem runFrom_bind_ok (h : read.runFrom r = (.ok a, r')) :
    (read >>= f).runFrom r = (f a).runFrom r' := by
  rw [runFrom_bind, h]

theorem runFrom_bind_error (h : read.runFrom r = (.error e, r')) :
    (read >>= f).runFrom r = (.error e, r') := by
  rw [runFrom_bind, h]

theorem runFrom_peek {n : Nat} : (peek n).runFrom r =
    if (r.rest.take n).length < n then
      (.error (.bufferTooShort (r.consumed + n) (r.consumed + r.remaining)), r)
    else (.ok (r.rest.take n), r) := by
  have hget : (get : Read Reader).runFrom r = (.ok r, r) := rfl
  rw [peek, runFrom_bind_ok hget]
  dsimp only
  split
  · rfl
  · rfl

theorem runFrom_skip {n : Nat} : (skip n).runFrom r = (.ok (), r.skip n) :=
  rfl

theorem runFrom_finish : finish.runFrom r =
    if r.rest.isEmpty then (.ok (), r)
    else (.error (.invalidWireFormat s!"{r.remaining} trailing bytes"), r) := by
  have hget : (get : Read Reader).runFrom r = (.ok r, r) := rfl
  rw [finish, runFrom_bind_ok hget]
  split <;> rfl

/-- A value is read exactly if nothing is left behind it. -/
theorem exactly_eq {bytes : Bytes} : read.exactly bytes =
    match read.run bytes with
    | (.ok a, r) =>
      if r.rest.isEmpty then .ok a
      else .error (.invalidWireFormat s!"{r.remaining} trailing bytes")
    | (.error e, _) => .error e := by
  rw [exactly, run, run, runFrom_bind]
  rcases read.runFrom { rest := bytes } with ⟨e | a, r⟩
  · rfl
  · dsimp only
    rw [runFrom_bind, runFrom_finish]
    cases r.rest.isEmpty <;> rfl

/-! ### Reading what was written -/

/-- The read takes back what an encoding wrote, whatever follows. -/
def Reads (read : Read α) (e : Encoding) (a : α) : Prop :=
  ∀ rest k, read.runFrom ⟨e.written ++ rest, k⟩ = (.ok a, ⟨rest, k + e.written.length⟩)

variable {e₁ e₂ : Encoding} {b : β}

theorem Reads.bind (h₁ : Reads read e₁ a) (hc : e₁.Complete) (h₂ : Reads (f a) e₂ b) :
    Reads (read >>= f) (e₁ ++ e₂) b := by
  intro rest k
  rw [Encoding.written_append hc, List.append_assoc, runFrom_bind_ok (h₁ _ k), h₂ rest,
    List.length_append, Nat.add_assoc]

theorem Reads.map {g : α → β} (h : Reads read e₁ a) :
    Reads (do let a ← read; return g a) e₁ (g a) := by
  intro rest k
  rw [runFrom_bind_ok (h rest k), runFrom_pure]

theorem runFrom_peek_append {front rest : Bytes} {k : Nat} :
    (peek front.length).runFrom ⟨front ++ rest, k⟩ = (.ok front, ⟨front ++ rest, k⟩) := by
  rw [runFrom_peek, List.take_left, if_neg (Nat.lt_irrefl _)]

theorem skip_append {front rest : Bytes} {k : Nat} :
    Reader.skip ⟨front ++ rest, k⟩ front.length = ⟨rest, k + front.length⟩ := by
  rw [Reader.skip, List.drop_left]

theorem runFrom_take_append {front rest : Bytes} {k : Nat} :
    (take front.length).runFrom ⟨front ++ rest, k⟩ = (.ok front, ⟨rest, k + front.length⟩) := by
  rw [take, runFrom_bind_ok runFrom_peek_append, runFrom_bind_ok runFrom_skip, skip_append,
    runFrom_pure]

theorem reads_number {width n : Nat} (h : n < Nat.pow 256 width) :
    Reads (number width) (Encoding.number width n) n := by
  intro rest k
  have htake : (take width).runFrom ⟨littleEndian width n ++ rest, k⟩ =
      (.ok (littleEndian width n), ⟨rest, k + (littleEndian width n).length⟩) := by
    have hfront : (littleEndian width n).length = width := length_littleEndian
    rw [← runFrom_take_append, hfront]
  rw [number, Encoding.number, runFrom_bind_ok htake, runFrom_pure, ofLittleEndian_littleEndian,
    Nat.mod_eq_of_lt h]

theorem reads_word {n : UInt64} : Reads word (Encoding.word n) n := by
  have hread : Reads word (Encoding.word n) (UInt64.ofNat n.toNat) :=
    (reads_number (by exact n.toNat_lt)).map
  rwa [UInt64.ofNat_toNat] at hread

/-- A short text is read as it was written. -/
theorem reads_string {s : String} (h : Short s) : Reads string (Encoding.string s) s := by
  have hshort : s.utf8ByteSize < Nat.pow 256 2 := Nat.lt_succ_of_le h
  have hencoding : Encoding.string s = .number 2 s.utf8ByteSize ++ ⟨ofText s, none⟩ :=
    if_neg (Nat.not_lt.2 h)
  rw [hencoding]
  refine Reads.bind (reads_number hshort) rfl fun rest k => ?_
  rw [← Encoding.length_ofText, runFrom_bind_ok runFrom_peek_append, text?_ofText]
  dsimp only
  rw [runFrom_bind_ok runFrom_skip, skip_append, runFrom_pure]

theorem reads_count {e : String × UInt64} (h : Short e.1) : Reads count (Encoding.count e) e :=
  (reads_string h).bind (Encoding.takes_string.complete.2 h) reads_word.map

theorem repeatedFrom_succ {n : Nat} {values : List α} : repeatedFrom read (n + 1) values =
    read >>= fun value => repeatedFrom read n (value :: values) :=
  funext fun _ => runFrom_bind.symm

theorem runFrom_repeatedFrom {g : α → Encoding} {l values : List α}
    (h : ∀ a ∈ l, Reads read (g a) a ∧ (g a).Complete) (rest : Bytes) (k : Nat) :
    (repeatedFrom read l.length values).runFrom ⟨(Encoding.concat (l.map g)).written ++ rest, k⟩ =
      (.ok (values.reverse ++ l), ⟨rest, k + (Encoding.concat (l.map g)).written.length⟩) := by
  induction l generalizing values k with
  | nil =>
    rw [List.append_nil]
    rfl
  | cons a l ih =>
    obtain ⟨ha, hl⟩ := List.forall_mem_cons.1 h
    have hconcat : (Encoding.concat ((a :: l).map g)).written =
        (g a).written ++ (Encoding.concat (l.map g)).written := Encoding.written_append ha.2
    rw [List.length_cons, hconcat, List.append_assoc, repeatedFrom_succ,
      runFrom_bind_ok (ha.1 _ k), ih hl, List.reverse_cons, List.append_assoc, List.length_append,
      Nat.add_assoc]
    rfl

theorem reads_repeated {g : α → Encoding} {l : List α}
    (h : ∀ a ∈ l, Reads read (g a) a ∧ (g a).Complete) :
    Reads (repeated l.length read) (.concat (l.map g)) l :=
  runFrom_repeatedFrom h

/-- Reads a list behind its length. -/
def counted (width : Nat) (read : Read α) : Read (List α) := do
  let size ← number width
  repeated size read

/-- A list is read as it was written, if its length cannot be too large to be written. -/
theorem reads_counted {width max : Nat} {reason : LedgerError} {g : α → Encoding} {l : List α}
    (hmax : max < Nat.pow 256 width) (hfew : l.length ≤ max)
    (h : ∀ a ∈ l, Reads read (g a) a ∧ (g a).Complete) :
    Reads (counted width read) (.counted width max reason g l) l := by
  rw [Encoding.counted, if_neg (Nat.not_lt.2 hfew)]
  exact (reads_number (Nat.lt_of_le_of_lt hfew hmax)).bind rfl (reads_repeated h)

/-- Reads the entries of a clock as they are listed. -/
def listing : Read (List (String × UInt64)) :=
  counted 2 count

theorem clock_eq : clock = do let entries ← listing; return Clock.ofEntries entries := by
  simp only [clock, listing, counted, bind_assoc]

/-- A clock is read as it was written, with the zeros that it stores. -/
theorem reads_clock {c : Clock} (hb : c.Brief) (hn : c.Named) : Reads clock (.clock c) c := by
  -- the entries are written in order, so to put them in order again changes nothing
  have hclock : Clock.ofEntries c.entries = c :=
    congrArg Clock.mk (NameMap.ofList_entries c.counters)
  have hentries : Reads listing (.listing c.entries) c.entries :=
    reads_counted (by decide) hb fun e he =>
      ⟨reads_count (hn e he), Encoding.takes_count.complete.2 (hn e he)⟩
  have hread := hentries.map (g := Clock.ofEntries)
  rwa [hclock, ← clock_eq] at hread

/-- What takes back all bytes reads them exactly. -/
theorem Reads.exactly (h : Reads read e₁ a) : read.exactly e₁.written = .ok a := by
  have hread : read.runFrom ⟨e₁.written, 0⟩ = (.ok a, ⟨[], e₁.written.length⟩) := by
    rw [← Nat.zero_add e₁.written.length, ← h [] 0, List.append_nil]
  rw [exactly_eq, run, hread]
  rfl

end Read

/-! ### Frames -/

/-- Four bytes write a number of four bytes. -/
theorem ofLittleEndian_toNat {n : UInt32} : ofLittleEndian (littleEndian 4 n.toNat) = n.toNat := by
  rw [ofLittleEndian_littleEndian]
  exact Nat.mod_eq_of_lt n.toNat_lt

/-- Four bytes have room for the length of a body that is not too large. -/
theorem toNat_ofNat_of_le_maxBodySize {n : Nat} (h : n ≤ maxBodySize) :
    (UInt32.ofNat n).toNat = n :=
  UInt32.toNat_ofNat_of_lt' (Nat.lt_of_le_of_lt h (by decide))

theorem Header.parse_bytes {h : Header} {rest : Bytes} (hversion : h.version = wireVersion)
    (hsize : h.bodyLength.toNat ≤ maxBodySize) : Header.parse (h.bytes ++ rest) = .ok h := by
  obtain ⟨version, kind, bodyLength⟩ := h
  subst hversion
  have hlength := @ofLittleEndian_toNat bodyLength
  simp only [littleEndian] at hlength
  simp only [Header.bytes, littleEndian, List.cons_append, List.nil_append, Header.parse, ne_eq,
    not_true_eq_false, if_false, MessageKind.ofByte?_byte, hlength]
  rw [if_neg (Nat.not_lt.2 hsize), UInt32.ofNat_toNat]

theorem Header.length_bytes {h : Header} : h.bytes.length = headerSize :=
  rfl

theorem Header.bodyLength_of_parse {h : Header} {bytes : Bytes} (hparse : parse bytes = .ok h) :
    h.bodyLength.toNat ≤ maxBodySize := by
  revert hparse
  fun_cases parse bytes
  all_goals intro hparse; cases hparse
  rename_i hsize
  rw [toNat_ofNat_of_le_maxBodySize (Nat.not_lt.1 hsize)]
  exact Nat.not_lt.1 hsize

/-- What parses to a frame is a header and as many bytes as it announces. -/
theorem Frame.exists_header_of_parse {f : Frame} {bytes : Bytes} (h : parse bytes = .ok f) :
    ∃ header, Header.parse bytes = .ok header ∧
      bytes.length = headerSize + header.bodyLength.toNat ∧
      f = ⟨header.kind, bytes.drop headerSize⟩ := by
  rw [parse] at h
  obtain ⟨header, hparse, h⟩ := Result.bind_eq_ok_iff.1 h
  dsimp only at h
  split at h
  · cases h
  · rename_i hlong
    split at h
    · cases h
    · rename_i hshort
      cases h
      exact ⟨header, hparse, Nat.le_antisymm (Nat.not_lt.1 hshort) (Nat.not_lt.1 hlong), rfl⟩

/-- The body of a frame that parses is not too large. -/
theorem Frame.length_body_of_parse {f : Frame} {bytes : Bytes} (h : parse bytes = .ok f) :
    f.body.length ≤ maxBodySize := by
  obtain ⟨header, hparse, hlength, rfl⟩ := exists_header_of_parse h
  have hsize := Header.bodyLength_of_parse hparse
  rw [List.length_drop, hlength]
  omega

/-- The header tells the length of a body that is not too large. -/
theorem Frame.toNat_bodyLength {f : Frame} (h : f.body.length ≤ maxBodySize) :
    f.header.bodyLength.toNat = f.body.length :=
  toNat_ofNat_of_le_maxBodySize h

/-- **A frame is parsed from its bytes.** -/
theorem Frame.parse_of_serialize {f : Frame} {bytes : Bytes} (h : f.serialize = .ok bytes) :
    Frame.parse bytes = .ok f := by
  have hsize : f.body.length ≤ maxBodySize := Frame.exists_serialize_iff.1 ⟨bytes, h⟩
  have hlength := Frame.toNat_bodyLength hsize
  rw [serialize, if_neg (Nat.not_lt.2 hsize)] at h
  cases h
  have hheader : Header.parse (f.header.bytes ++ f.body) = .ok f.header :=
    Header.parse_bytes rfl (by rwa [hlength])
  have htotal : (f.header.bytes ++ f.body).length = headerSize + f.header.bodyLength.toNat := by
    rw [List.length_append, Header.length_bytes, hlength]
  rw [Frame.parse, hheader]
  dsimp only [bind, Except.bind]
  rw [htotal, if_neg (Nat.lt_irrefl _), if_neg (Nat.lt_irrefl _), ← Header.length_bytes,
    List.drop_left]
  rfl

end Wire

end GossipLedger
