import GossipLedger.Proofs.Wire.RoundTrip

/-!
# What the bytes of an operation say

The bytes of an operation may list the entries of a clock in any order, and several for one
replica.  An `Operation.Layout` is what they say, with the entries as they are listed; the operation
comes of it when these are put in order (`Operation.Layout.read_operation`).

Each layout has its own bytes.  They are read as they were written, and whatever a read gives, it
has gone over just the bytes in which that is written (`Reader.Spans`).  So bytes are an operation
exactly if they are the bytes of a layout (`Operation.Layout.decode_eq_ok_iff`), and then of only
one (`Operation.Layout.encode_injective`).
-/

namespace GossipLedger

open Wire

/-! ### Layouts -/

namespace Operation

/-- What the bytes of an operation say. -/
structure Layout where
  /-- What the operation does. -/
  kind : Kind
  /-- The replica that accepted the operation first. -/
  origin : ReplicaId
  /-- The entries of the context, as they are listed. -/
  context : List (ReplicaId × UInt64)
  /-- The entries of the timestamp, as they are listed. -/
  timestamp : List (ReplicaId × UInt64)
  /-- Whether the operation is marked as applied. -/
  stable : Bool

namespace Layout

/-- The layout in which an operation is written. -/
def ofOperation (op : Operation) : Layout :=
  ⟨op.kind, op.origin, op.context.entries, op.timestamp.entries, op.stable⟩

/-- The operation that is made of a layout. -/
def operation (l : Layout) : Operation :=
  ⟨l.kind, l.origin, .ofEntries l.context, .ofEntries l.timestamp, l.stable⟩

/-- Writes a layout. -/
def encoding (l : Layout) : Encoding :=
  .byte l.kind.tag.byte ++ .string l.origin ++ .kindFields l.kind ++ .listing l.context
    ++ .listing l.timestamp ++ .bool l.stable

/-- The bytes of a layout. -/
def encode (l : Layout) : Result Bytes :=
  l.encoding.result

/-- Reads a layout. -/
def read : Read Layout := do
  let b ← Read.byte
  match KindTag.ofByte? b with
  | none => throw (.unknownOperationKind b)
  | some tag =>
    let origin ← Read.string
    let kind ← Read.kindFields tag
    let context ← Read.listing
    let timestamp ← Read.listing
    let stable ← Read.bool
    return ⟨kind, origin, context, timestamp, stable⟩

variable {l : Layout}

theorem encoding_ofOperation {op : Operation} : (ofOperation op).encoding = .operation op :=
  rfl

/-- To read an operation is to read a layout and to put its entries in order. -/
theorem read_operation : Read.operation = do let l ← read; return l.operation := by
  simp only [Read.operation, read, Read.clock_eq, bind_assoc, pure_bind]
  refine bind_congr fun b => ?_
  cases KindTag.ofByte? b with
  | none => rfl
  | some tag =>
    simp only [bind_assoc, pure_bind]
    rfl

theorem restores_read : Read.Restores read l.encoding l := by
  simp only [encoding, Encoding.append_assoc]
  refine Read.restores_byte.bind ?_
  rw [KindTag.ofByte?_byte]
  exact Read.restores_string.bind (Read.restores_kindFields.bind (Read.restores_listing.bind
    (Read.restores_listing.bind Read.restores_bool.map)))

end Layout

end Operation

theorem KindTag.byte_of_ofByte? {b : UInt8} {tag : KindTag} (h : ofByte? b = some tag) :
    tag.byte = b := by
  unfold ofByte? at h
  grind [byte]

namespace Wire

/-! ### What a read has gone over -/

namespace Reader

variable {r r' r'' : Reader} {e e' : Encoding}

/-- From one place to another the reader goes over the whole of an encoding. -/
structure Spans (r : Reader) (e : Encoding) (r' : Reader) : Prop where
  /-- All of it was written. -/
  complete : e.Complete
  /-- It comes next. -/
  rest_eq : r.rest = e.written ++ r'.rest

theorem Spans.append (h : r.Spans e r') (h' : r'.Spans e' r'') : r.Spans (e ++ e') r'' where
  complete := Encoding.complete_append.2 ⟨h.complete, h'.complete⟩
  rest_eq := by
    rw [Encoding.written_append h.complete, List.append_assoc, ← h'.rest_eq, h.rest_eq]

theorem spans_empty : r.Spans .empty r :=
  ⟨rfl, rfl⟩

end Reader

namespace Read

variable {α β : Type} {read : Read α} {f : α → Read β} {r r' : Reader} {a : α} {b : β}
  {bytes : Bytes}

theorem exists_of_runFrom_bind (h : (read >>= f).runFrom r = (.ok b, r')) :
    ∃ a m, read.runFrom r = (.ok a, m) ∧ (f a).runFrom m = (.ok b, r') := by
  rw [runFrom_bind] at h
  rcases hrun : read.runFrom r with ⟨e | a, m⟩
  · rw [hrun] at h
    cases h
  · rw [hrun] at h
    exact ⟨a, m, rfl, h⟩

theorem of_runFrom_peek {n : Nat} {front : Bytes} (h : (peek n).runFrom r = (.ok front, r')) :
    r' = r ∧ front.length = n ∧ r.rest = front ++ (r.skip n).rest := by
  rw [runFrom_peek] at h
  split at h
  · cases h
  · rename_i hthere
    cases h
    exact ⟨rfl, Nat.le_antisymm (List.length_take_le n r.rest) (Nat.not_lt.1 hthere),
      (List.take_append_drop n r.rest).symm⟩

theorem spans_number {width n : Nat} (h : (number width).runFrom r = (.ok n, r')) :
    n < Nat.pow 256 width ∧ r.Spans (.number width n) r' := by
  obtain ⟨front, m, hfront, h⟩ := exists_of_runFrom_bind h
  obtain ⟨front', m', hpeek, hskip⟩ := exists_of_runFrom_bind hfront
  obtain ⟨rfl, rfl, hrest⟩ := of_runFrom_peek hpeek
  cases hskip
  cases h
  refine ⟨ofLittleEndian_lt, rfl, ?_⟩
  rw [Encoding.number, littleEndian_ofLittleEndian]
  exact hrest

theorem spans_byte {b : UInt8} (h : byte.runFrom r = (.ok b, r')) : r.Spans (.byte b) r' := by
  obtain ⟨n, m, hnumber, h⟩ := exists_of_runFrom_bind h
  cases h
  obtain ⟨hlt, hspans⟩ := spans_number hnumber
  rwa [Encoding.byte, UInt8.toNat_ofNat_of_lt' hlt]

theorem spans_word {n : UInt64} (h : word.runFrom r = (.ok n, r')) : r.Spans (.word n) r' := by
  obtain ⟨n, m, hnumber, h⟩ := exists_of_runFrom_bind h
  cases h
  obtain ⟨hlt, hspans⟩ := spans_number hnumber
  rwa [Encoding.word, UInt64.toNat_ofNat_of_lt' hlt]

theorem spans_signedWord {n : Int64} (h : signedWord.runFrom r = (.ok n, r')) :
    r.Spans (.signedWord n) r' := by
  obtain ⟨n, m, hword, h⟩ := exists_of_runFrom_bind h
  cases h
  rw [Encoding.signedWord, UInt64.toUInt64_toInt64]
  exact spans_word hword

theorem spans_bool {b : Bool} (h : bool.runFrom r = (.ok b, r')) : r.Spans (.bool b) r' := by
  obtain ⟨n, m, hbyte, h⟩ := exists_of_runFrom_bind h
  have hspans := spans_byte hbyte
  split at h
  · rename_i hzero
    cases h
    rwa [hzero] at hspans
  · split at h
    · rename_i hone
      cases h
      rwa [hone] at hspans
    · cases h

/-- The length in front of a text is the one that it has. -/
theorem spans_string {s : String} (h : string.runFrom r = (.ok s, r')) :
    r.Spans (.string s) r' := by
  obtain ⟨size, m, hsize, h⟩ := exists_of_runFrom_bind h
  obtain ⟨front, m', hpeek, htake⟩ := exists_of_runFrom_bind h
  obtain ⟨hlt, hspans⟩ := spans_number hsize
  obtain ⟨rfl, hlength, hrest⟩ := of_runFrom_peek hpeek
  cases htext : text? front with
  | none =>
    rw [htext] at htake
    cases htake
  | some t =>
    rw [htext] at htake
    cases htake
    have hbytes : ofText s = front := ofText_of_text? htext
    have hsize : s.utf8ByteSize = size := by rw [← Encoding.length_ofText, hbytes, hlength]
    have hshort : ¬ s.utf8ByteSize > Encoding.maxShort := by
      rw [hsize]
      exact Nat.not_lt.2 (Nat.le_of_lt_succ hlt)
    rw [Encoding.string, if_neg hshort, hsize]
    refine hspans.append ⟨rfl, ?_⟩
    rw [hbytes]
    exact hrest

theorem spans_count {e : String × UInt64} (h : count.runFrom r = (.ok e, r')) :
    r.Spans (.count e) r' := by
  obtain ⟨name, m, hname, h⟩ := exists_of_runFrom_bind h
  obtain ⟨n, m', hn, h⟩ := exists_of_runFrom_bind h
  cases h
  exact (spans_string hname).append (spans_word hn)

/-- What is read behind the values that there are already, and how many. -/
theorem spans_repeatedFrom {g : α → Encoding}
    (hread : ∀ {r a r'}, read.runFrom r = (.ok a, r') → r.Spans (g a) r') {n : Nat}
    {values l : List α} (h : (repeatedFrom read n values).runFrom r = (.ok l, r')) :
    ∃ more, l = values.reverse ++ more ∧ more.length = n ∧
      r.Spans (.concat (more.map g)) r' := by
  induction n generalizing r values with
  | zero =>
    cases h
    exact ⟨[], (List.append_nil _).symm, rfl, Reader.spans_empty⟩
  | succ n ih =>
    rw [repeatedFrom_succ] at h
    obtain ⟨a, m, ha, h⟩ := exists_of_runFrom_bind h
    obtain ⟨more, rfl, hlength, hspans⟩ := ih h
    refine ⟨a :: more, ?_, ?_, (hread ha).append hspans⟩
    · rw [List.reverse_cons, List.append_assoc, List.singleton_append]
    · rw [List.length_cons, hlength]

theorem spans_listing {entries : List (String × UInt64)}
    (h : listing.runFrom r = (.ok entries, r')) : r.Spans (.listing entries) r' := by
  obtain ⟨size, m, hsize, h⟩ := exists_of_runFrom_bind h
  obtain ⟨hlt, hspans⟩ := spans_number hsize
  obtain ⟨_, rfl, rfl, hspans'⟩ := spans_repeatedFrom spans_count h
  have hbrief : ¬ entries.length > Encoding.maxShort := Nat.not_lt.2 (Nat.le_of_lt_succ hlt)
  rw [Encoding.listing, Encoding.counted, if_neg hbrief]
  exact hspans.append hspans'

theorem spans_kindFields {tag : KindTag} {kind : Kind}
    (h : (kindFields tag).runFrom r = (.ok kind, r')) :
    kind.tag = tag ∧ r.Spans (.kindFields kind) r' := by
  cases tag with
  | createAccount =>
    obtain ⟨account, m, haccount, h⟩ := exists_of_runFrom_bind h
    cases h
    exact ⟨rfl, spans_string haccount⟩
  | deleteAccount =>
    obtain ⟨account, m, haccount, h⟩ := exists_of_runFrom_bind h
    cases h
    exact ⟨rfl, spans_string haccount⟩
  | transfer =>
    obtain ⟨source, m, hsource, h⟩ := exists_of_runFrom_bind h
    obtain ⟨target, m', htarget, h⟩ := exists_of_runFrom_bind h
    obtain ⟨amount, m'', hamount, h⟩ := exists_of_runFrom_bind h
    cases h
    exact ⟨rfl, ((spans_string hsource).append (spans_string htarget)).append
      (spans_signedWord hamount)⟩

theorem exactly_eq_ok_iff :
    read.exactly bytes = .ok a ↔ ∃ k, read.run bytes = (.ok a, ⟨[], k⟩) := by
  rw [exactly_eq]
  rcases read.run bytes with ⟨e | b, ⟨rest, k⟩⟩
  · simp
  · cases rest <;> simp

theorem exactly_map {g : α → β} : exactly (do let a ← read; return g a) bytes = .ok b ↔
    ∃ a, read.exactly bytes = .ok a ∧ g a = b := by
  rw [exactly_eq, exactly_eq, run, run, runFrom_bind]
  rcases read.runFrom { rest := bytes } with ⟨e | a, ⟨rest, k⟩⟩
  · simp
  · cases rest <;> simp [runFrom_pure]

end Read

end Wire

/-! ### Layouts and their bytes -/

namespace Operation.Layout

variable {l m : Layout} {bytes : Bytes}

theorem spans_read {r r' : Reader} (h : read.runFrom r = (.ok l, r')) : r.Spans l.encoding r' := by
  obtain ⟨b, m, hbyte, h⟩ := Read.exists_of_runFrom_bind h
  cases htag : KindTag.ofByte? b with
  | none =>
    rw [htag] at h
    cases h
  | some tag =>
    rw [htag] at h
    obtain ⟨origin, m₁, horigin, h⟩ := Read.exists_of_runFrom_bind h
    obtain ⟨kind, m₂, hkind, h⟩ := Read.exists_of_runFrom_bind h
    obtain ⟨context, m₃, hcontext, h⟩ := Read.exists_of_runFrom_bind h
    obtain ⟨timestamp, m₄, htimestamp, h⟩ := Read.exists_of_runFrom_bind h
    obtain ⟨stable, m₅, hstable, h⟩ := Read.exists_of_runFrom_bind h
    cases h
    obtain ⟨hkindTag, hfields⟩ := Read.spans_kindFields hkind
    have hb : kind.tag.byte = b := by
      rw [hkindTag]
      exact KindTag.byte_of_ofByte? htag
    subst hb
    exact (((((Read.spans_byte hbyte).append (Read.spans_string horigin)).append hfields).append
      (Read.spans_listing hcontext)).append (Read.spans_listing htimestamp)).append
        (Read.spans_bool hstable)

/-- A layout is read from its own bytes and from no others. -/
theorem read_exactly_iff : read.exactly bytes = .ok l ↔ l.encode = .ok bytes := by
  rw [encode, Encoding.result_eq_ok_iff]
  constructor
  · intro h
    obtain ⟨k, hrun⟩ := Read.exactly_eq_ok_iff.1 h
    have hspans := spans_read hrun
    refine ⟨hspans.complete, ?_⟩
    rw [← List.append_nil l.encoding.written]
    exact hspans.rest_eq.symm
  · rintro ⟨hcomplete, rfl⟩
    exact (restores_read hcomplete).exactly

/-- **Bytes are an operation exactly if they are the bytes of a layout of it.** -/
theorem decode_eq_ok_iff {op : Operation} :
    Operation.decode bytes = .ok op ↔ ∃ l : Layout, l.encode = .ok bytes ∧ l.operation = op := by
  rw [Operation.decode, read_operation, Read.exactly_map]
  simp only [read_exactly_iff]

theorem encode_injective (hl : l.encode = .ok bytes) (hm : m.encode = .ok bytes) : l = m := by
  have h := (read_exactly_iff.2 hl).symm.trans (read_exactly_iff.2 hm)
  injection h

end Operation.Layout

end GossipLedger
