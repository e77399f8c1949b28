import GossipLedger.Proofs.Wire.Reading
import Mathlib.Data.List.Perm.Basic

/-!
# What comes of any bytes

Whatever bytes a message has, reading it gives a value that could have been written, in which all
names are short and all clocks have few entries, or an error whose text is short (`Read.Yields`).
Each read is examined once, and reads that follow each other are joined by `Read.Yields.bind`.  For
a whole request this is `Request.writable_of_ofFrame` and `Request.short_of_ofFrame`.
-/

namespace GossipLedger

/-! ### Names -/

namespace NameMap

variable {β : Type} {m : NameMap β} {l : List (String × β)} {e : String × β}

theorem mem_of_find {name : String} {value : β} (h : find name l = some value) :
    (name, value) ∈ l := by
  induction l with
  | nil => cases h
  | cons f rest ih =>
    rw [find] at h
    split at h
    · rename_i hname
      cases h
      rw [← hname]
      exact List.mem_cons_self
    · exact List.mem_cons_of_mem _ (ih h)

theorem mem_of_mem_ofList (h : e ∈ (ofList l).entries) : e ∈ l := by
  have hfind : (ofList l).get? e.1 = some e.2 := mem_entries_iff.1 h
  rw [get?_ofList] at hfind
  exact List.mem_reverse.1 (mem_of_find hfind)

theorem nodup_entries : m.entries.Nodup := by
  refine m.increasing.imp ?_
  rintro a _ h rfl
  exact String.lt_irrefl _ h

theorem subperm_ofList : (ofList l).entries.Subperm l :=
  List.subperm_of_subset nodup_entries fun _ he => mem_of_mem_ofList he

end NameMap

namespace Request

/-- The names in the request are short. -/
def Named : Request → Prop
  | write kind context => (∀ account ∈ kind.accounts, Short account) ∧ context.Named
  | balance account context => Short account ∧ context.Named
  | activate => True
  | deactivate => True
  | dumpLedgerState => True
  | triggerGossip => True
  | pushLedgerSnapshot sender operations => Short sender ∧ ∀ op ∈ operations, op.Named

theorem Writable.named {request : Request} (h : request.Writable) : request.Named := by
  cases request with
  | write kind context => exact ⟨h.1, h.2.2⟩
  | balance account context => exact ⟨h.1, h.2.2⟩
  | pushLedgerSnapshot sender operations => exact ⟨h.1, fun op hop => (h.2.2 op hop).2⟩
  | _ => exact trivial

end Request

/-! ### Texts of errors -/

theorem utf8Size_digitChar {n : Nat} (h : n < 10) : (Nat.digitChar n).utf8Size = 1 := by
  have hall : ∀ n < 10, (Nat.digitChar n).utf8Size = 1 := by decide
  exact hall n h

theorem utf8ByteSize_repr {n : Nat} (h : n < 10) : n.repr.utf8ByteSize = 1 := by
  rw [Nat.repr_of_lt h, String.utf8ByteSize_singleton, utf8Size_digitChar h]

theorem utf8ByteSize_repr_le {k n : Nat} (h : n < Nat.pow 10 (k + 1)) :
    n.repr.utf8ByteSize ≤ k + 1 := by
  induction k generalizing n with
  | zero => exact Nat.le_of_eq (utf8ByteSize_repr h)
  | succ k ih =>
    by_cases hn : n < 10
    · rw [utf8ByteSize_repr hn]
      exact Nat.succ_le_succ (Nat.zero_le _)
    · have hdiv : n / 10 < Nat.pow 10 (k + 1) := Nat.div_lt_of_lt_mul (by rwa [Nat.mul_comm])
      rw [Nat.repr_of_ge (Nat.not_lt.1 hn), String.utf8ByteSize_append,
        String.utf8ByteSize_singleton, utf8Size_digitChar (Nat.mod_lt _ (by decide))]
      exact Nat.succ_le_succ (ih hdiv)

/-- A number below a thousand million has at most nine digits. -/
theorem utf8ByteSize_toString_le {n : Nat} (h : n < 1000000000) : (toString n).utf8ByteSize ≤ 9 :=
  utf8ByteSize_repr_le (k := 8) h

theorem utf8ByteSize_byte_le {b : UInt8} : (toString b).utf8ByteSize ≤ 9 :=
  utf8ByteSize_toString_le (Nat.lt_of_lt_of_le b.toNat_lt (by decide))

theorem short_append {s t : String} (hs : s.utf8ByteSize ≤ 100) (ht : t.utf8ByteSize ≤ 200) :
    Short (s ++ t) := by
  have hmax : Wire.Encoding.maxShort = 65535 := rfl
  unfold Short
  rw [String.utf8ByteSize_append]
  omega

namespace LedgerError

theorem short_bufferTooShort {expected actual : Nat} (he : expected < 1000000000)
    (ha : actual < 1000000000) : Short (bufferTooShort expected actual).message := by
  have hfirst : "Buffer too short: expected ".utf8ByteSize = 27 := by decide
  have hsecond : ", got ".utf8ByteSize = 6 := by decide
  have hexpected := utf8ByteSize_toString_le he
  have hactual := utf8ByteSize_toString_le ha
  refine short_append (s := "Buffer too short: expected " ++ toString expected ++ ", got ") ?_
    (Nat.le_trans hactual (by decide))
  rw [String.utf8ByteSize_append, String.utf8ByteSize_append]
  omega

theorem short_invalidWireFormat {reason : String} (h : reason.utf8ByteSize ≤ 200) :
    Short (invalidWireFormat reason).message :=
  short_append (s := "Invalid wire format: ") (by decide) h

theorem short_unknownOperationKind {b : UInt8} : Short (unknownOperationKind b).message :=
  short_append (s := "Unknown operation kind: ") (by decide)
    (Nat.le_trans utf8ByteSize_byte_le (by decide))

theorem short_unknownMessageKind {b : UInt8} : Short (unknownMessageKind b).message :=
  short_append (s := "Unknown message kind: ") (by decide)
    (Nat.le_trans utf8ByteSize_byte_le (by decide))

end LedgerError

namespace Wire

namespace Utf8Fault

/-- A fault lies within the bytes. -/
theorem scan_le {start read : Nat} {awaited : List Range} {bytes : Bytes} :
    (scan start read awaited bytes).index ≤ start + read + bytes.length ∧
      ∀ n ∈ (scan start read awaited bytes).length, n ≤ start + read + bytes.length + 1 := by
  fun_induction scan start read awaited bytes with
  | case1 => simp
  | case2 start read b rest awaited hfollow ih =>
    rw [List.length_cons]
    exact ⟨by omega, fun n hn => by have := ih.2 n hn; omega⟩
  | case3 => simp
  | case4 start read range awaited b rest hin ih =>
    rw [List.length_cons]
    exact ⟨by omega, fun n hn => by have := ih.2 n hn; omega⟩
  | case5 => simp; omega

theorem utf8ByteSize_message_le {bytes : Bytes} (h : bytes.length < 1000000) :
    (ofBytes bytes).message.utf8ByteSize ≤ 100 := by
  have hscan : (scan 0 0 [] bytes).index ≤ 0 + 0 + bytes.length ∧
      ∀ n ∈ (scan 0 0 [] bytes).length, n ≤ 0 + 0 + bytes.length + 1 := scan_le
  rw [ofBytes]
  generalize scan 0 0 [] bytes = fault at hscan ⊢
  obtain ⟨index, length⟩ := fault
  obtain ⟨hindex, hlength⟩ := hscan
  dsimp only at hindex hlength
  have hi : (toString index).utf8ByteSize ≤ 9 := utf8ByteSize_toString_le (by omega)
  cases length with
  | none =>
    have hmessage : (Utf8Fault.mk index none).message =
        "incomplete utf-8 byte sequence from index " ++ toString index := rfl
    have hfirst : "incomplete utf-8 byte sequence from index ".utf8ByteSize = 42 := by decide
    simp only [hmessage, String.utf8ByteSize_append]
    omega
  | some n =>
    have hn : n ≤ 0 + 0 + bytes.length + 1 := hlength n rfl
    have hdigits : (toString n).utf8ByteSize ≤ 9 := utf8ByteSize_toString_le (by omega)
    have hmessage : (Utf8Fault.mk index (some n)).message =
        "invalid utf-8 sequence of " ++ toString n ++ " bytes from index " ++ toString index := rfl
    have hfirst : "invalid utf-8 sequence of ".utf8ByteSize = 26 := by decide
    have hsecond : " bytes from index ".utf8ByteSize = 18 := by decide
    simp only [hmessage, String.utf8ByteSize_append]
    omega

end Utf8Fault

/-! ### Reads -/

namespace Reader

/-- Where the buffer ends. -/
def stop (r : Reader) : Nat :=
  r.consumed + r.remaining

end Reader

namespace Read

variable {α β : Type} {read : Read α} {f : α → Read β} {P : α → Prop} {Q : β → Prop} {a : α}
  {e : LedgerError}

/-- From a place in a buffer that is not too large the read gives a value with a property, or an
error with a short text. -/
def YieldsAt (read : Read α) (r : Reader) (P : α → Prop) : Prop :=
  match read.runFrom r with
  | (.ok a, r') => P a ∧ r'.stop ≤ maxBodySize
  | (.error e, _) => Short e.message

/-- It does so from anywhere. -/
def Yields (read : Read α) (P : α → Prop) : Prop :=
  ∀ r : Reader, r.stop ≤ maxBodySize → read.YieldsAt r P

theorem yields_pure (h : P a) : Yields (pure a) P :=
  fun _ hr => ⟨h, hr⟩

theorem yields_throw (h : Short e.message) : Yields (throw e) P :=
  fun _ _ => h

/-- Reads that follow each other. -/
theorem Yields.bind (h : Yields read P) (hf : ∀ a, P a → Yields (f a) Q) :
    Yields (read >>= f) Q := by
  intro r hr
  have hread := h r hr
  rw [YieldsAt] at hread
  rw [YieldsAt, runFrom_bind]
  rcases hrun : read.runFrom r with ⟨_ | a, r'⟩
  · rw [hrun] at hread
    exact hread
  · rw [hrun] at hread
    exact hf a hread.1 r' hread.2

theorem Yields.mono {Q : α → Prop} (h : Yields read P) (hq : ∀ a, P a → Q a) :
    Yields read Q := by
  intro r hr
  have hread := h r hr
  rw [YieldsAt] at hread ⊢
  split at hread
  · exact ⟨hq _ hread.1, hread.2⟩
  · exact hread

theorem Yields.map {g : α → β} (h : Yields read P) (hg : ∀ a, P a → Q (g a)) :
    Yields (do let a ← read; return g a) Q :=
  h.bind fun a ha => yields_pure (hg a ha)

/-! ### Bytes and numbers -/

/-- The text for bytes that are missing is short. -/
theorem short_missing {r : Reader} {n : Nat} (hr : r.stop ≤ maxBodySize)
    (hn : n ≤ Encoding.maxShort) :
    Short (LedgerError.bufferTooShort (r.consumed + n) (r.consumed + r.remaining)).message := by
  have hmax : maxBodySize = 16777216 := rfl
  have hshort : Encoding.maxShort = 65535 := rfl
  unfold Reader.stop at hr
  exact LedgerError.short_bufferTooShort (by omega) (by omega)

/-- Looking at bytes is where they may turn out to be missing. -/
theorem yields_peek {n : Nat} {f : Bytes → Read β} (hn : n ≤ Encoding.maxShort)
    (hf : ∀ r : Reader, r.stop ≤ maxBodySize → (r.rest.take n).length = n →
      (f (r.rest.take n)).YieldsAt r Q) : Yields (peek n >>= f) Q := by
  intro r hr
  have hpeek := runFrom_peek (r := r) (n := n)
  rw [YieldsAt]
  split at hpeek
  · rw [runFrom_bind_error hpeek]
    exact short_missing hr hn
  · rename_i hthere
    rw [runFrom_bind_ok hpeek]
    exact hf r hr (Nat.le_antisymm (List.length_take_le n r.rest) (Nat.not_lt.1 hthere))

/-- What has been looked at can be skipped. -/
theorem yieldsAt_skip {r : Reader} {n : Nat} (hr : r.stop ≤ maxBodySize)
    (hthere : (r.rest.take n).length = n) (h : P a) :
    YieldsAt (do skip n; return a) r P := by
  rw [YieldsAt, runFrom_bind_ok runFrom_skip, runFrom_pure]
  refine ⟨h, Nat.le_trans (Nat.le_of_eq ?_) hr⟩
  rw [List.length_take] at hthere
  simp only [Reader.stop, Reader.skip, Reader.remaining, List.length_drop]
  omega

theorem yields_take {n : Nat} (hn : n ≤ Encoding.maxShort) :
    Yields (take n) fun front => front.length = n :=
  yields_peek hn fun _ hr hthere => yieldsAt_skip hr hthere hthere

theorem yields_number {width : Nat} (hw : width ≤ Encoding.maxShort) :
    Yields (number width) fun n => n < Nat.pow 256 width :=
  (yields_take hw).map fun _ hfront => hfront ▸ ofLittleEndian_lt

theorem yields_byte : Yields byte fun _ => True :=
  (yields_number (by decide)).map fun _ _ => trivial

theorem yields_word : Yields word fun _ => True :=
  (yields_number (by decide)).map fun _ _ => trivial

theorem yields_signedWord : Yields signedWord fun _ => True :=
  yields_word.map fun _ _ => trivial

theorem yields_bool : Yields bool fun _ => True := by
  refine yields_byte.bind fun b _ => ?_
  split
  · exact yields_pure trivial
  · split
    · exact yields_pure trivial
    · refine yields_throw (LedgerError.short_invalidWireFormat ?_)
      have hbyte := utf8ByteSize_byte_le (b := b)
      have hfirst : "Invalid boolean byte: ".utf8ByteSize = 22 := by decide
      change ("Invalid boolean byte: " ++ toString b).utf8ByteSize ≤ 200
      rw [String.utf8ByteSize_append]
      omega

/-! ### Ledger values -/

/-- A text that is read has as many bytes as two bytes can count. -/
theorem yields_string : Yields string Short := by
  refine (yields_number (by decide)).bind fun size hsize => ?_
  have hshort : size ≤ Encoding.maxShort := Nat.le_of_lt_succ hsize
  refine yields_peek hshort fun r hr hthere => ?_
  cases htext : text? (r.rest.take size) with
  | some s =>
    have hsize : s.utf8ByteSize = size := by
      rw [← Encoding.length_ofText, ofText_of_text? htext, hthere]
    exact yieldsAt_skip hr hthere (Nat.le_trans (Nat.le_of_eq hsize) hshort)
  | none =>
    have hmax : Encoding.maxShort = 65535 := rfl
    have hfault : (Utf8Fault.ofBytes (r.rest.take size)).message.utf8ByteSize ≤ 100 :=
      Utf8Fault.utf8ByteSize_message_le (by omega)
    have hfirst : "Invalid UTF-8: ".utf8ByteSize = 15 := by decide
    refine LedgerError.short_invalidWireFormat ?_
    change ("Invalid UTF-8: " ++ (Utf8Fault.ofBytes (r.rest.take size)).message).utf8ByteSize ≤ 200
    rw [String.utf8ByteSize_append]
    omega

theorem yields_count : Yields count fun e => Short e.1 :=
  yields_string.bind fun _ hname => yields_word.map fun _ _ => hname

theorem yields_repeated (h : Yields read P) (n : Nat) :
    Yields (repeated n read) fun l => l.length = n ∧ ∀ a ∈ l, P a := by
  suffices hall : ∀ n values, (∀ a ∈ values, P a) →
      Yields (repeatedFrom read n values) fun l => l.length = values.length + n ∧ ∀ a ∈ l, P a from
    (hall n [] nofun).mono fun _ hl => ⟨hl.1.trans (Nat.zero_add n), hl.2⟩
  intro n
  induction n with
  | zero =>
    exact fun values hvalues =>
      yields_pure ⟨List.length_reverse, fun a ha => hvalues a (List.mem_reverse.1 ha)⟩
  | succ n ih =>
    intro values hvalues
    rw [repeatedFrom_succ, Nat.add_comm n 1, ← Nat.add_assoc]
    exact h.bind fun a ha => ih (a :: values) (List.forall_mem_cons.2 ⟨ha, hvalues⟩)

/-- A list that is read behind its length has no more elements than the length can count. -/
theorem yields_counted {width : Nat} (h : Yields read P) (hw : width ≤ Encoding.maxShort) :
    Yields (counted width read) fun l => l.length < Nat.pow 256 width ∧ ∀ a ∈ l, P a :=
  (yields_number hw).bind fun size hsize =>
    (yields_repeated h size).mono fun _ hl => ⟨hl.1 ▸ hsize, hl.2⟩

/-- The entries of a clock that is read are some of those that are listed. -/
theorem yields_clock : Yields clock fun c => c.Brief ∧ c.Named := by
  rw [clock_eq]
  refine (yields_counted yields_count (by decide)).map fun entries hentries => ?_
  obtain ⟨hlength, hnames⟩ := hentries
  have hsub : (Clock.ofEntries entries).entries.Subperm entries := NameMap.subperm_ofList
  exact ⟨Nat.le_of_lt_succ (Nat.lt_of_le_of_lt hsub.length_le hlength),
    fun e he => hnames e (hsub.subset he)⟩

theorem yields_kindFields {tag : KindTag} :
    Yields (kindFields tag) fun kind => ∀ account ∈ kind.accounts, Short account := by
  cases tag with
  | createAccount => exact yields_string.map fun _ h => by simpa [Kind.accounts] using h
  | deleteAccount => exact yields_string.map fun _ h => by simpa [Kind.accounts] using h
  | transfer =>
    refine yields_string.bind fun source hsource => yields_string.bind fun target htarget => ?_
    exact yields_signedWord.map fun _ _ => by simpa [Kind.accounts] using ⟨hsource, htarget⟩

/-- An operation that is read could have been written. -/
theorem yields_operation : Yields operation fun op => op.Brief ∧ op.Named := by
  refine yields_byte.bind fun b _ => ?_
  cases KindTag.ofByte? b with
  | none => exact yields_throw LedgerError.short_unknownOperationKind
  | some tag =>
    refine yields_string.bind fun origin horigin => ?_
    refine yields_kindFields.bind fun kind hkind => ?_
    refine yields_clock.bind fun context hcontext => ?_
    refine yields_clock.bind fun timestamp htimestamp => ?_
    exact yields_bool.map fun _ _ =>
      ⟨⟨hcontext.1, htimestamp.1⟩, horigin, hkind, hcontext.2, htimestamp.2⟩

theorem yields_operations : Yields operations fun ops =>
    ops.length ≤ Encoding.maxOperations ∧ ∀ op ∈ ops, op.Brief ∧ op.Named :=
  (yields_counted yields_operation (by decide)).mono fun _ hops =>
    ⟨Nat.le_of_lt_succ hops.1, hops.2⟩

/-- Nothing else is wrong with bytes that are left over. -/
theorem yields_finish : Yields finish fun _ => True := by
  intro r hr
  have hmax : maxBodySize = 16777216 := rfl
  rw [YieldsAt, runFrom_finish]
  by_cases hempty : r.rest.isEmpty = true
  · rw [if_pos hempty]
    exact ⟨trivial, hr⟩
  · rw [if_neg hempty]
    refine LedgerError.short_invalidWireFormat ?_
    -- no more bytes can be left than the buffer has
    have hdigits : (toString r.remaining).utf8ByteSize ≤ 9 := by
      unfold Reader.stop at hr
      exact utf8ByteSize_toString_le (by omega)
    have hsecond : " trailing bytes".utf8ByteSize = 15 := by decide
    change ("" ++ toString r.remaining ++ " trailing bytes").utf8ByteSize ≤ 200
    rw [String.utf8ByteSize_append, String.utf8ByteSize_append, String.utf8ByteSize_empty]
    omega

end Read

end Wire

/-! ### Requests -/

namespace Request

open Wire

/-- A request that is read could have been written. -/
theorem yields_read {kind : MessageKind} : Read.Yields (read kind) Writable := by
  have hwrite : ∀ tag, Read.Yields (readWrite tag) Writable := fun tag =>
    Read.yields_kindFields.bind fun _ hkind => Read.yields_clock.map fun _ hcontext =>
      ⟨hkind, hcontext⟩
  cases kind with
  | createAccount => exact hwrite _
  | deleteAccount => exact hwrite _
  | transferTo => exact hwrite _
  | balance =>
    exact Read.yields_string.bind fun _ haccount => Read.yields_clock.map fun _ hcontext =>
      ⟨haccount, hcontext⟩
  | activate => exact Read.yields_pure trivial
  | deactivate => exact Read.yields_pure trivial
  | dumpLedgerState => exact Read.yields_pure trivial
  | triggerGossip => exact Read.yields_pure trivial
  | pushLedgerSnapshot =>
    exact Read.yields_string.bind fun _ hsender => Read.yields_operations.map fun _ hops =>
      ⟨hsender, hops⟩
  | _ => exact Read.yields_throw LedgerError.short_unknownMessageKind

section OfFrame

variable {frame : Frame} (hsize : frame.body.length ≤ maxBodySize)

include hsize

theorem yields_ofFrame :
    match ofFrame frame with
    | .ok request => request.Writable
    | .error e => Short e.message := by
  have hkind : Read.Yields (read frame.kind) Writable := yields_read
  have hread := (hkind.bind fun request hrequest =>
    Read.yields_finish.map fun _ _ => hrequest) { rest := frame.body } (by
      rwa [Reader.stop, Nat.zero_add])
  rw [Read.YieldsAt] at hread
  rw [ofFrame, Read.exactly, Read.run]
  rcases hrun : Read.runFrom _ _ with ⟨_ | request, r⟩
  · rw [hrun] at hread
    exact hread
  · rw [hrun] at hread
    exact hread.1

/-- **A request that arrives could have been written.** -/
theorem writable_of_ofFrame {request : Request} (h : ofFrame frame = .ok request) :
    request.Writable := by
  have hread := yields_ofFrame hsize
  rwa [h] at hread

/-- **All names in a request that arrives are short.** -/
theorem named_of_ofFrame {request : Request} (h : ofFrame frame = .ok request) : request.Named :=
  (writable_of_ofFrame hsize h).named

/-- **The text for a frame that holds no request is short.** -/
theorem short_of_ofFrame {e : LedgerError} (h : ofFrame frame = .error e) : Short e.message := by
  have hread := yields_ofFrame hsize
  rwa [h] at hread

end OfFrame

end Request

end GossipLedger
