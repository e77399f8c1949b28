import GossipLedger.Proofs.Wire.ByteOrder
import GossipLedger.Proofs.Wire.Decoding
import GossipLedger.Proofs.Wire.Layout
import Mathlib.Data.List.Perm.Basic

/-!
# Operations in their normal form

An operation that is decoded and encoded again gets the bytes in which it would have been written:
the entries of its clocks come in order, one for each replica.  `Operation.decode_normalises` says
that this is always possible, that it takes no more bytes than there were, and that it changes
nothing but the entries: the bytes stay as they are exactly if the names in either clock increase
(`Layout.Sorted`), byte by byte (`Wire.ofText_lt_ofText_iff`).
-/

namespace GossipLedger

open Wire

/-! ### Entries in order -/

namespace NameMap

variable {β : Type} {l : List (String × β)}

theorem entries_ofList_iff : (ofList l).entries = l ↔ l.Pairwise fun a b => a.1 < b.1 := by
  constructor
  · intro h
    rw [← h]
    exact (ofList l).increasing
  · exact fun h => congrArg entries (ofList_entries ⟨l, h⟩)

end NameMap

section Sizes

variable {α : Type} {size : α → Nat} {l m : List α}

theorem sizes_map {β : Type} {f : β → α} {l : List β} :
    sizes size (l.map f) = sizes (fun b => size (f b)) l :=
  List.foldr_map

theorem sizes_append : sizes size (l ++ m) = sizes size l + sizes size m := by
  induction l with
  | nil => exact (Nat.zero_add _).symm
  | cons a l ih => rw [List.cons_append, sizes_cons, sizes_cons, ih, Nat.add_assoc]

theorem sizes_flatMap {β : Type} {f : β → List α} {l : List β} :
    sizes size (l.flatMap f) = sizes (fun b => sizes size (f b)) l := by
  induction l with
  | nil => rfl
  | cons b l ih => rw [List.flatMap_cons, sizes_append, sizes_cons, ih]

theorem sizes_perm (h : l.Perm m) : sizes size l = sizes size m := by
  induction h with
  | nil => rfl
  | cons a _ ih => rw [sizes_cons, sizes_cons, ih]
  | swap a b l => rw [sizes_cons, sizes_cons, sizes_cons, sizes_cons, Nat.add_left_comm]
  | trans _ _ ih ih' => exact ih.trans ih'

theorem sizes_le_of_sublist (h : l.Sublist m) : sizes size l ≤ sizes size m := by
  induction h with
  | slnil => exact Nat.le_refl _
  | cons a _ ih => exact Nat.le_trans ih (Nat.le_add_left ..)
  | cons_cons a _ ih => exact Nat.add_le_add_left ih (size a)

theorem sizes_le_of_subperm (h : l.Subperm m) : sizes size l ≤ sizes size m := by
  obtain ⟨part, hperm, hsub⟩ := h
  rw [← sizes_perm hperm]
  exact sizes_le_of_sublist hsub

/-- Elements of one size. -/
theorem sizes_of_forall {n : Nat} (h : ∀ a ∈ l, size a = n) : sizes size l = l.length * n := by
  induction l with
  | nil => exact (Nat.zero_mul n).symm
  | cons a l ih =>
    obtain ⟨ha, hl⟩ := List.forall_mem_cons.1 h
    rw [sizes_cons, ha, ih hl, List.length_cons, Nat.succ_mul, Nat.add_comm]

end Sizes

namespace Wire.Encoding

variable {e e' f f' : Encoding}

/-- If the second encoding is complete, so is the first, and it has no more bytes. -/
def Abridges (e f : Encoding) : Prop :=
  f.Complete → e.Complete ∧ e.written.length ≤ f.written.length

theorem abridges_refl : e.Abridges e :=
  fun h => ⟨h, Nat.le_refl _⟩

theorem Abridges.append (h : e.Abridges f) (h' : e'.Abridges f') :
    (e ++ e').Abridges (f ++ f') := by
  intro hc
  obtain ⟨hf, hf'⟩ := complete_append.1 hc
  obtain ⟨he, hle⟩ := h hf
  obtain ⟨he', hle'⟩ := h' hf'
  refine ⟨complete_append.2 ⟨he, he'⟩, ?_⟩
  rw [written_append he, written_append hf, List.length_append, List.length_append]
  exact Nat.add_le_add hle hle'

/-- The entries of a clock are some of those that were listed. -/
theorem abridges_listing {entries : List (String × UInt64)} :
    (clock (.ofEntries entries)).Abridges (listing entries) := by
  intro hc
  obtain ⟨hbrief, hnamed⟩ := takes_listing.complete.1 hc
  have hsub : (Clock.ofEntries entries).entries.Subperm entries := NameMap.subperm_ofList
  have hcomplete : (clock (.ofEntries entries)).Complete :=
    takes_clock.complete.2 ⟨Nat.le_trans hsub.length_le hbrief,
      fun e he => hnamed e (hsub.subset he)⟩
  refine ⟨hcomplete, ?_⟩
  rw [takes_clock.length hcomplete, takes_listing.length hc]
  exact Nat.add_le_add_left (sizes_le_of_subperm hsub) 2

end Wire.Encoding

/-! ### Sorted layouts -/

namespace Operation

namespace Layout

variable {l : Layout}

/-- The names of the entries increase strictly, in the order of their bytes. -/
def Ascending (entries : List (ReplicaId × UInt64)) : Prop :=
  entries.Pairwise fun a b => ofText a.1 < ofText b.1

/-- The names in both clocks increase. -/
def Sorted (l : Layout) : Prop :=
  Ascending l.context ∧ Ascending l.timestamp

theorem ascending_iff {entries : List (ReplicaId × UInt64)} :
    Ascending entries ↔ (Clock.ofEntries entries).entries = entries := by
  unfold Ascending
  simp only [ofText_lt_ofText_iff]
  exact NameMap.entries_ofList_iff.symm

theorem ofOperation_operation_iff : ofOperation l.operation = l ↔ l.Sorted := by
  obtain ⟨kind, origin, context, timestamp, stable⟩ := l
  simp [ofOperation, operation, Sorted, ascending_iff]

theorem abridges_operation : (Encoding.operation l.operation).Abridges l.encoding :=
  ((Encoding.abridges_refl.append Encoding.abridges_listing).append
    Encoding.abridges_listing).append Encoding.abridges_refl

/-- The operation is what the layout says; of several entries for one replica the last counts. -/
structure Spells (l : Layout) (op : Operation) : Prop where
  /-- What the operation does. -/
  kind : op.kind = l.kind
  /-- The replica that accepted the operation first. -/
  origin : op.origin = l.origin
  /-- The counts that the context stores. -/
  context : ∀ r, op.context.counters.get? r = NameMap.find r l.context.reverse
  /-- The counts that the timestamp stores. -/
  timestamp : ∀ r, op.timestamp.counters.get? r = NameMap.find r l.timestamp.reverse
  /-- Whether the operation is marked as applied. -/
  stable : op.stable = l.stable

theorem spells_operation : l.Spells l.operation where
  kind := rfl
  origin := rfl
  context _ := NameMap.get?_ofList
  timestamp _ := NameMap.get?_ofList
  stable := rfl

end Layout

/-- **Decoding normalises.**  Whatever bytes decode to an operation, the operation can be encoded in
no more bytes, and these decode to it.  The bytes that there were say all that the operation holds,
in one layout, and they are those that encoding gives exactly if it is sorted. -/
theorem decode_normalises {bytes : Bytes} {op : Operation} (h : decode bytes = .ok op) :
    ∃ sent, op.encode = .ok sent ∧ sent.length ≤ bytes.length ∧ decode sent = .ok op ∧
      ∃ l : Layout, l.encode = .ok bytes ∧ (∀ m : Layout, m.encode = .ok bytes → m = l) ∧
        l.Spells op ∧ (sent = bytes ↔ l.Sorted) := by
  obtain ⟨l, hl, rfl⟩ := Layout.decode_eq_ok_iff.1 h
  obtain ⟨hcomplete, rfl⟩ := Encoding.result_eq_ok_iff.1 hl
  obtain ⟨hsent, hle⟩ := Layout.abridges_operation hcomplete
  have hencode : (Layout.ofOperation l.operation).encode =
      .ok (Encoding.operation l.operation).written := by
    rw [Layout.encode, Layout.encoding_ofOperation, Encoding.result_eq_ok hsent]
  have hdecode : decode (Encoding.operation l.operation).written = .ok l.operation :=
    (Read.restores_operation hsent).exactly
  refine ⟨_, hencode, hle, hdecode, l, hl, fun m hm => Layout.encode_injective hm hl,
    Layout.spells_operation, ?_⟩
  rw [← Layout.ofOperation_operation_iff]
  constructor
  · intro heq
    rw [heq] at hencode
    exact Layout.encode_injective hencode hl
  · intro heq
    rw [heq, hl] at hencode
    injection hencode with hbytes
    exact hbytes.symm

/-- A layout whose context lists its replicas out of order, and one of them twice. -/
def shuffled : Layout where
  kind := .create "x"
  origin := "A"
  context := [("B", 1), ("A", 2), ("B", 0)]
  timestamp := [("A", 3), ("B", 0)]
  stable := true

theorem shuffled_normalises : decode shuffled.encoding.written = .ok shuffled.operation ∧
    ∃ sent, shuffled.operation.encode = .ok sent ∧
      sent.length ≤ shuffled.encoding.written.length ∧ decode sent = .ok shuffled.operation ∧
      ∃ l : Layout, l.encode = .ok shuffled.encoding.written ∧
        (∀ m : Layout, m.encode = .ok shuffled.encoding.written → m = l) ∧
        l.Spells shuffled.operation ∧ (sent = shuffled.encoding.written ↔ l.Sorted) := by
  have h : decode shuffled.encoding.written = .ok shuffled.operation := by rfl
  exact ⟨h, decode_normalises h⟩

end Operation

end GossipLedger
