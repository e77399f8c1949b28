import GossipLedger.Proofs.Accounts.Execution
import GossipLedger.Wire.Message

/-!
# What can be written

For each kind of field this file says exactly when it can be written, and how many bytes it then
takes (`Encoding.Takes`).  A text has to be short (`Short`), a clock must not have too many entries
(`Clock.Brief`), and nothing else stops an encoding but a list of more operations than four bytes
can count.

A message that can be written can be sent if its body is not larger than `maxBodySize`
(`Request.exists_bytes_iff`, `Response.exists_bytes_iff`).
-/

namespace GossipLedger

open Wire

/-! ### Sizes -/

/-- The sum of the sizes of a list's elements. -/
def sizes {α : Type} (size : α → Nat) (l : List α) : Nat :=
  l.foldr (fun a sum => size a + sum) 0

theorem sizes_cons {α : Type} {size : α → Nat} {a : α} {l : List α} :
    sizes size (a :: l) = size a + sizes size l := rfl

theorem length_le_sizes {α : Type} {size : α → Nat} {l : List α} (h : ∀ a, 1 ≤ size a) :
    l.length ≤ sizes size l := by
  induction l with
  | nil => exact Nat.le_refl _
  | cons a rest ih =>
    have ha := h a
    rw [List.length_cons, sizes_cons]
    omega

/-- The text has at most as many bytes as two bytes can count. -/
def Short (s : String) : Prop :=
  s.utf8ByteSize ≤ Encoding.maxShort

instance (s : String) : Decidable (Short s) :=
  inferInstanceAs (Decidable (_ ≤ _))

/-- The number of bytes of an entry with a name and a count. -/
def entrySize (e : String × UInt64) : Nat :=
  2 + e.1.utf8ByteSize + 8

namespace Clock

/-- The clock has at most as many entries as two bytes can count. -/
def Brief (c : Clock) : Prop :=
  c.size ≤ Encoding.maxShort

/-- The names in the clock are short. -/
def Named (c : Clock) : Prop :=
  ∀ e ∈ c.entries, Short e.1

/-- The number of bytes of a clock. -/
def wireSize (c : Clock) : Nat :=
  2 + sizes entrySize c.entries

end Clock

namespace Operation

/-- The clocks of the operation have few entries. -/
def Brief (op : Operation) : Prop :=
  op.context.Brief ∧ op.timestamp.Brief

/-- The names in the operation are short. -/
structure Named (op : Operation) : Prop where
  /-- The origin. -/
  origin : Short op.origin
  /-- The accounts. -/
  accounts : ∀ account ∈ op.kind.accounts, Short account
  /-- The replicas in the context. -/
  context : op.context.Named
  /-- The replicas in the timestamp. -/
  timestamp : op.timestamp.Named

end Operation

/-- The number of bytes of what a kind is about. -/
def Kind.wireSize : Kind → Nat
  | create account => 2 + account.utf8ByteSize
  | delete account => 2 + account.utf8ByteSize
  | transfer source target _ => 2 + source.utf8ByteSize + (2 + target.utf8ByteSize) + 8

/-- The number of bytes of an operation. -/
def Operation.wireSize (op : Operation) : Nat :=
  1 + (2 + op.origin.utf8ByteSize) + op.kind.wireSize + op.context.wireSize + op.timestamp.wireSize
    + 1

namespace Dump

/-- The clocks in the dump have few entries. -/
def Brief (d : Dump) : Prop :=
  d.clock.Brief ∧ ∀ op ∈ d.operations, op.Brief

/-- The names in the dump are short. -/
structure Named (d : Dump) : Prop where
  /-- The replica. -/
  replica : Short d.replica
  /-- The replicas that the clock counts. -/
  clock : d.clock.Named
  /-- The open accounts. -/
  balances : ∀ e ∈ d.balances.entries, Short e.1
  /-- The names in the operations. -/
  operations : ∀ op ∈ d.operations, op.Named

/-- The number of bytes of a dump. -/
def wireSize (d : Dump) : Nat :=
  2 + d.replica.utf8ByteSize + 1 + d.clock.wireSize + 4 + sizes entrySize d.balances.entries
    + (4 + sizes Operation.wireSize d.operations)

end Dump

namespace Request

/-- Nothing stops the request from being written. -/
def Writable : Request → Prop
  | write kind context =>
    (∀ account ∈ kind.accounts, Short account) ∧ context.Brief ∧ context.Named
  | balance account context => Short account ∧ context.Brief ∧ context.Named
  | activate => True
  | deactivate => True
  | dumpLedgerState => True
  | triggerGossip => True
  | pushLedgerSnapshot sender operations =>
    Short sender ∧ operations.length ≤ Encoding.maxOperations ∧
      ∀ op ∈ operations, op.Brief ∧ op.Named

/-- The number of bytes of a request's body. -/
def wireSize : Request → Nat
  | write kind context => kind.wireSize + context.wireSize
  | balance account context => 2 + account.utf8ByteSize + context.wireSize
  | activate => 0
  | deactivate => 0
  | dumpLedgerState => 0
  | triggerGossip => 0
  | pushLedgerSnapshot sender operations =>
    2 + sender.utf8ByteSize + (4 + sizes Operation.wireSize operations)

end Request

namespace Response

/-- Nothing stops the response from being written. -/
def Writable : Response → Prop
  | clock observed => observed.Brief ∧ observed.Named
  | balance _ observed => observed.Brief ∧ observed.Named
  | ack => True
  | ledgerState dump => dump.Brief ∧ dump.Named ∧ dump.operations.length ≤ Encoding.maxOperations
  | gossip .. => True
  | error _ message => Short message

/-- The number of bytes of a response's body. -/
def wireSize : Response → Nat
  | clock observed => observed.wireSize
  | balance _ observed => 8 + observed.wireSize
  | ack => 0
  | ledgerState dump => dump.wireSize
  | gossip .. => 4 + 4 + 4
  | error _ message => 2 + (2 + message.utf8ByteSize)

end Response

namespace Wire

namespace Encoding

variable {a b c e : Encoding} {p q : Prop} {m n : Nat} {bytes : Bytes}

/-! ### Complete encodings -/

/-- Everything was written. -/
def Complete (e : Encoding) : Prop :=
  e.failure = none

theorem complete_append : (a ++ b).Complete ↔ a.Complete ∧ b.Complete := by
  change (Encoding.append a b).failure = none ↔ _
  rw [Encoding.append, Complete]
  cases ha : a.failure with
  | none => exact ⟨fun h => ⟨rfl, h⟩, fun h => h.2⟩
  | some reason => simp [ha]

theorem written_append (h : a.Complete) : (a ++ b).written = a.written ++ b.written := by
  change (Encoding.append a b).written = _
  rw [Encoding.append, h]

theorem append_assoc : a ++ b ++ c = a ++ (b ++ c) := by
  change (a.append b).append c = a.append (b.append c)
  obtain ⟨written, failure⟩ := a
  cases failure with
  | some reason => rfl
  | none =>
    obtain ⟨written', failure'⟩ := b
    cases failure' with
    | some reason => rfl
    | none => simp only [Encoding.append, List.append_assoc]

theorem exists_result_iff : (∃ bytes, e.result = .ok bytes) ↔ e.Complete := by
  rw [Complete, result]
  cases e.failure <;> simp

theorem result_eq_ok (h : e.Complete) : e.result = .ok e.written := by
  rw [result, h]

theorem result_eq_ok_iff : e.result = .ok bytes ↔ e.Complete ∧ e.written = bytes := by
  rw [Complete, result]
  cases e.failure <;> simp

/-- The encoding is complete exactly under a condition, and has then a certain number of bytes. -/
structure Takes (e : Encoding) (p : Prop) (n : Nat) : Prop where
  /-- When it is complete. -/
  complete : e.Complete ↔ p
  /-- How many bytes there are. -/
  length : e.Complete → e.written.length = n

theorem takes_self {α : Type} {f : α → Encoding} (a : α) :
    (f a).Takes (f a).Complete (f a).written.length :=
  ⟨Iff.rfl, fun _ => rfl⟩

theorem Takes.congr (h : e.Takes p n) (hp : p ↔ q) (hn : n = m) : e.Takes q m :=
  ⟨h.complete.trans hp, hn ▸ h.length⟩

theorem Takes.append (ha : a.Takes p m) (hb : b.Takes q n) : (a ++ b).Takes (p ∧ q) (m + n) where
  complete := complete_append.trans (and_congr ha.complete hb.complete)
  length h := by
    obtain ⟨hca, hcb⟩ := complete_append.1 h
    rw [written_append hca, List.length_append, ha.length hca, hb.length hcb]

theorem takes_empty : empty.Takes True 0 :=
  ⟨iff_true_intro rfl, fun _ => rfl⟩

theorem takes_concat_map {α : Type} {f : α → Encoding} {p : α → Prop} {size : α → Nat}
    (h : ∀ a, (f a).Takes (p a) (size a)) (l : List α) :
    (concat (l.map f)).Takes (∀ a ∈ l, p a) (sizes size l) := by
  induction l with
  | nil => exact takes_empty.congr (by simp) rfl
  | cons a rest ih => exact ((h a).append ih).congr List.forall_mem_cons.symm rfl

/-! ### Numbers and texts -/

theorem takes_number {width : Nat} : (number width n).Takes True width :=
  ⟨iff_true_intro rfl, fun _ => length_littleEndian⟩

theorem takes_byte {b : UInt8} : (byte b).Takes True 1 :=
  takes_number

theorem takes_word {n : UInt64} : (word n).Takes True 8 :=
  takes_number

theorem takes_signedWord {n : Int64} : (signedWord n).Takes True 8 :=
  takes_number

theorem takes_bool {b : Bool} : (bool b).Takes True 1 :=
  takes_number

theorem length_ofText {s : String} : (ofText s).length = s.utf8ByteSize :=
  rfl

/-- A text can be written if it is short. -/
theorem takes_string {s : String} : (string s).Takes (Short s) (2 + s.utf8ByteSize) := by
  have htext : Takes ⟨ofText s, none⟩ True s.utf8ByteSize :=
    ⟨iff_true_intro rfl, fun _ => length_ofText⟩
  rw [string, Short]
  split
  · rename_i hlong
    exact ⟨iff_of_false nofun (Nat.not_le.2 hlong), nofun⟩
  · rename_i hshort
    exact (takes_number.append htext).congr
      (iff_of_true ⟨trivial, trivial⟩ (Nat.not_lt.1 hshort)) rfl

theorem takes_count {e : String × UInt64} : (count e).Takes (Short e.1) (entrySize e) :=
  (takes_string.append takes_word).congr (iff_of_eq (and_true _)) rfl

/-! ### Ledger values -/

/-- Writes a list behind its length, unless that is too large. -/
def counted {α : Type} (width max : Nat) (reason : LedgerError) (f : α → Encoding) (l : List α) :
    Encoding :=
  if l.length > max then fail reason else number width l.length ++ concat (l.map f)

/-- A list can be written if it is not too long and its elements can be. -/
theorem takes_counted {α : Type} {width max : Nat} {reason : LedgerError} {f : α → Encoding}
    {p : α → Prop} {size : α → Nat} (h : ∀ a, (f a).Takes (p a) (size a)) (l : List α) :
    (counted width max reason f l).Takes (l.length ≤ max ∧ ∀ a ∈ l, p a)
      (width + sizes size l) := by
  rw [counted]
  split
  · rename_i hlong
    exact ⟨iff_of_false nofun fun h => Nat.not_le.2 hlong h.1, nofun⟩
  · rename_i hfew
    refine (takes_number.append (takes_concat_map h l)).congr ?_ rfl
    rw [true_and, and_iff_right (Nat.not_lt.1 hfew)]

/-- Writes the entries of a clock as they are listed. -/
def listing (entries : List (String × UInt64)) : Encoding :=
  counted 2 maxShort (.invalidWireFormat "Clock has too many entries") count entries

theorem takes_listing {entries : List (String × UInt64)} :
    (listing entries).Takes (entries.length ≤ maxShort ∧ ∀ e ∈ entries, Short e.1)
      (2 + sizes entrySize entries) :=
  takes_counted (fun _ => takes_count) entries

/-- A clock can be written if it has few entries and short names. -/
theorem takes_clock {c : Clock} : (clock c).Takes (c.Brief ∧ c.Named) c.wireSize :=
  takes_listing

theorem takes_kindFields {kind : Kind} :
    (kindFields kind).Takes (∀ account ∈ kind.accounts, Short account) kind.wireSize := by
  cases kind with
  | create account => exact takes_string.congr (by simp [Kind.accounts]) rfl
  | delete account => exact takes_string.congr (by simp [Kind.accounts]) rfl
  | transfer source target amount =>
    exact ((takes_string.append takes_string).append takes_signedWord).congr
      (by simp [Kind.accounts]) rfl

/-- An operation can be written if its clocks have few entries and its names are short. -/
theorem takes_operation {op : Operation} :
    (operation op).Takes (op.Brief ∧ op.Named) op.wireSize := by
  refine (((((takes_byte.append takes_string).append takes_kindFields).append takes_clock).append
    takes_clock).append takes_bool).congr ?_ rfl
  constructor
  · rintro ⟨⟨⟨⟨⟨-, horigin⟩, haccounts⟩, hcb, hcn⟩, htb, htn⟩, -⟩
    exact ⟨⟨hcb, htb⟩, horigin, haccounts, hcn, htn⟩
  · rintro ⟨⟨hcb, htb⟩, horigin, haccounts, hcn, htn⟩
    exact ⟨⟨⟨⟨⟨trivial, horigin⟩, haccounts⟩, hcb, hcn⟩, htb, htn⟩, trivial⟩

/-- Operations can be written if each can be and four bytes can count them. -/
theorem takes_operations {ops : List Operation} :
    (operations ops).Takes (ops.length ≤ maxOperations ∧ ∀ op ∈ ops, op.Brief ∧ op.Named)
      (4 + sizes Operation.wireSize ops) :=
  takes_counted (fun _ => takes_operation) ops

/-! ### Messages -/

theorem takes_request {request : Request} :
    request.encoding.Takes request.Writable request.wireSize := by
  cases request with
  | write kind context => exact takes_kindFields.append takes_clock
  | balance account context => exact takes_string.append takes_clock
  | pushLedgerSnapshot sender operations => exact takes_string.append takes_operations
  | _ => exact takes_empty

theorem takes_dump {d : Dump} : (Response.ledgerState d).encoding.Takes
    (d.Brief ∧ d.Named ∧ d.operations.length ≤ maxOperations) d.wireSize := by
  refine ((((((takes_string.append takes_bool).append takes_clock).append takes_number).append
    (takes_concat_map (fun _ => takes_count) d.balances.entries)).append takes_operations)).congr
      ?_ rfl
  constructor
  · rintro ⟨⟨⟨⟨⟨hreplica, -⟩, hcb, hcn⟩, -⟩, hbalances⟩, hfew, hops⟩
    exact ⟨⟨hcb, fun op hop => (hops op hop).1⟩,
      ⟨hreplica, hcn, hbalances, fun op hop => (hops op hop).2⟩, hfew⟩
  · rintro ⟨⟨hcb, hob⟩, ⟨hreplica, hcn, hbalances, hon⟩, hfew⟩
    exact ⟨⟨⟨⟨⟨hreplica, trivial⟩, hcb, hcn⟩, trivial⟩, hbalances⟩, hfew,
      fun op hop => ⟨hob op hop, hon op hop⟩⟩

theorem takes_response {response : Response} :
    response.encoding.Takes response.Writable response.wireSize := by
  cases response with
  | clock observed => exact takes_clock
  | balance held observed =>
    exact (takes_word.append takes_clock).congr (iff_of_eq (true_and _)) rfl
  | ack => exact takes_empty
  | ledgerState dump => exact takes_dump
  | gossip attempted delivered failed =>
    exact ((takes_number.append takes_number).append takes_number).congr
      (by simp [Response.Writable]) rfl
  | error code message =>
    exact (takes_number.append takes_string).congr (iff_of_eq (true_and _)) rfl

end Encoding

/-- A frame can be sent if its body is not too large. -/
theorem Frame.exists_serialize_iff {f : Frame} :
    (∃ sent, f.serialize = .ok sent) ↔ f.body.length ≤ maxBodySize := by
  rw [serialize]
  split
  · rename_i hlarge
    exact iff_of_false nofun (Nat.not_le.2 hlarge)
  · rename_i hsmall
    exact iff_of_true ⟨_, rfl⟩ (Nat.not_lt.1 hsmall)

/-- A message can be sent if it can be written and its body is not too large. -/
theorem Encoding.Takes.exists_sent_iff {e : Encoding} {p : Prop} {n : Nat} (h : e.Takes p n)
    (kind : MessageKind) :
    (∃ sent, (e.result >>= fun body => Frame.serialize ⟨kind, body⟩) = .ok sent) ↔
      p ∧ n ≤ maxBodySize := by
  rw [← h.complete]
  constructor
  · rintro ⟨sent, hsent⟩
    cases hresult : e.result with
    | error reason =>
      rw [hresult] at hsent
      cases hsent
    | ok body =>
      obtain ⟨hcomplete, rfl⟩ := Encoding.result_eq_ok_iff.1 hresult
      rw [hresult] at hsent
      rw [← h.length hcomplete]
      exact ⟨hcomplete, Frame.exists_serialize_iff.1 ⟨sent, hsent⟩⟩
  · rintro ⟨hcomplete, hsize⟩
    rw [← h.length hcomplete] at hsize
    rw [Encoding.result_eq_ok hcomplete]
    exact Frame.exists_serialize_iff.2 hsize

end Wire

namespace Request

variable {request : Request}

theorem toFrame_eq_ok (h : request.encoding.Complete) :
    request.toFrame = .ok ⟨request.kind, request.encoding.written⟩ := by
  rw [toFrame, Encoding.result_eq_ok h]
  rfl

theorem bytes_eq : request.bytes =
    request.encoding.result >>= fun body => Frame.serialize ⟨request.kind, body⟩ := by
  simp only [bytes, toFrame, bind_assoc, pure_bind]

/-- **A request can be sent if it can be written and its body is not too large.** -/
theorem exists_bytes_iff :
    (∃ sent, request.bytes = .ok sent) ↔ request.Writable ∧ request.wireSize ≤ maxBodySize := by
  rw [bytes_eq]
  exact Encoding.takes_request.exists_sent_iff request.kind

end Request

namespace Response

variable {response : Response}

theorem toFrame_eq_ok (h : response.encoding.Complete) :
    response.toFrame = .ok ⟨response.kind, response.encoding.written⟩ := by
  rw [toFrame, Encoding.result_eq_ok h]
  rfl

theorem bytes_eq : response.bytes =
    response.encoding.result >>= fun body => Frame.serialize ⟨response.kind, body⟩ := by
  simp only [bytes, toFrame, bind_assoc, pure_bind]

/-- **A response can be sent if it can be written and its body is not too large.** -/
theorem exists_bytes_iff :
    (∃ sent, response.bytes = .ok sent) ↔
      response.Writable ∧ response.wireSize ≤ maxBodySize := by
  rw [bytes_eq]
  exact Encoding.takes_response.exists_sent_iff response.kind

end Response

end GossipLedger
