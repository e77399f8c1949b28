import GossipLedger.Proofs.Wire.Reading

/-!
# What is sent arrives

If a value was written as a whole, reading takes it back up to its last byte and leaves what
follows (`Read.Restores`).  Values that are written one behind the other are read one behind the
other (`Read.Restores.bind`), so this is proved field by field:

* `operations_selfDelimiting`: operations and lists of operations are written exactly if their
  names are short and their clocks have few entries, and are then read as they were;
* `messages_faithful`: a request or response that can be sent arrives as it was, and a reader of
  the other family refuses its frame.

Two numbers of four bytes count things in a dump.  For the operations the encoding itself looks
whether there are too many; for the balances nothing does, but a body that holds so many is too
large to be sent (`Dump.size_balances_lt`).
-/

namespace GossipLedger

namespace Wire

namespace Read

variable {α β : Type} {read : Read α} {f : α → Read β} {e e₁ e₂ : Encoding} {a : α} {b : β}

/-- If all of it was written, the read takes it back. -/
def Restores (read : Read α) (e : Encoding) (a : α) : Prop :=
  e.Complete → Reads read e a

theorem Restores.bind (h₁ : Restores read e₁ a) (h₂ : Restores (f a) e₂ b) :
    Restores (read >>= f) (e₁ ++ e₂) b := by
  intro h
  obtain ⟨hc₁, hc₂⟩ := Encoding.complete_append.1 h
  exact (h₁ hc₁).bind hc₁ (h₂ hc₂)

theorem Restores.map {g : α → β} (h : Restores read e a) :
    Restores (do let a ← read; return g a) e (g a) :=
  fun hc => (h hc).map

theorem restores_pure : Restores (pure a) .empty a :=
  fun _ _ _ => rfl

/-! ### Numbers -/

theorem restores_number {width n : Nat} (h : n < Nat.pow 256 width) :
    Restores (number width) (.number width n) n :=
  fun _ => reads_number h

theorem restores_byte {b : UInt8} : Restores byte (.byte b) b := by
  have hread : Restores byte (.byte b) (UInt8.ofNat b.toNat) :=
    (restores_number (by exact b.toNat_lt)).map
  rwa [UInt8.ofNat_toNat] at hread

theorem restores_short {n : UInt16} : Restores short (.number 2 n.toNat) n := by
  have hread : Restores short (.number 2 n.toNat) (UInt16.ofNat n.toNat) :=
    (restores_number (by exact n.toNat_lt)).map
  rwa [UInt16.ofNat_toNat] at hread

theorem restores_medium {n : UInt32} : Restores medium (.number 4 n.toNat) n := by
  have hread : Restores medium (.number 4 n.toNat) (UInt32.ofNat n.toNat) :=
    (restores_number (by exact n.toNat_lt)).map
  rwa [UInt32.ofNat_toNat] at hread

theorem restores_word {n : UInt64} : Restores word (.word n) n :=
  fun _ => reads_word

/-- The sign survives, as both directions go by the remainder modulo `2 ^ 64`. -/
theorem restores_signedWord {n : Int64} : Restores signedWord (.signedWord n) n := by
  have hread : Restores signedWord (.signedWord n) n.toUInt64.toInt64 := restores_word.map
  rwa [Int64.toInt64_toUInt64] at hread

theorem restores_bool {b : Bool} : Restores bool (.bool b) b := by
  intro _ rest k
  rw [bool, Encoding.bool, runFrom_bind_ok (restores_byte rfl rest k)]
  cases b <;> rfl

/-! ### Ledger values -/

theorem restores_string {s : String} : Restores string (.string s) s :=
  fun hc => reads_string (Encoding.takes_string.complete.1 hc)

theorem restores_count {e : String × UInt64} : Restores count (.count e) e :=
  restores_string.bind restores_word.map

theorem restores_repeated {g : α → Encoding} (h : ∀ a, Restores read (g a) a) (l : List α) :
    Restores (repeated l.length read) (.concat (l.map g)) l := by
  intro hc
  have hcomplete := (Encoding.takes_concat_map Encoding.takes_self l).complete.1 hc
  exact reads_repeated fun a ha => ⟨h a (hcomplete a ha), hcomplete a ha⟩

theorem restores_counted {width max : Nat} {reason : LedgerError} {g : α → Encoding}
    (hmax : max < Nat.pow 256 width) (h : ∀ a, Restores read (g a) a) (l : List α) :
    Restores (counted width read) (.counted width max reason g l) l := by
  intro hc
  obtain ⟨hfew, hcomplete⟩ := (Encoding.takes_counted Encoding.takes_self l).complete.1 hc
  exact reads_counted hmax hfew fun a ha => ⟨h a (hcomplete a ha), hcomplete a ha⟩

theorem restores_listing {entries : List (String × UInt64)} :
    Restores listing (.listing entries) entries :=
  restores_counted (by decide) (fun _ => restores_count) entries

theorem restores_clock {c : Clock} : Restores clock (.clock c) c := by
  intro hc
  obtain ⟨hbrief, hnamed⟩ := Encoding.takes_clock.complete.1 hc
  exact reads_clock hbrief hnamed

theorem restores_kindFields {kind : Kind} :
    Restores (kindFields kind.tag) (.kindFields kind) kind := by
  cases kind with
  | create account => exact restores_string.map
  | delete account => exact restores_string.map
  | transfer source target amount =>
    rw [Encoding.kindFields, Encoding.append_assoc]
    exact restores_string.bind (restores_string.bind restores_signedWord.map)

/-- An operation is read as it was written, with the zeros that its clocks store, and its mark. -/
theorem restores_operation {op : Operation} : Restores operation (.operation op) op := by
  simp only [Encoding.operation, Encoding.append_assoc]
  refine restores_byte.bind ?_
  rw [KindTag.ofByte?_byte]
  exact restores_string.bind (restores_kindFields.bind (restores_clock.bind
    (restores_clock.bind restores_bool.map)))

theorem restores_operations {ops : List Operation} :
    Restores operations (.operations ops) ops :=
  restores_counted (by decide) (fun _ => restores_operation) ops

end Read

/-! ### Values that tell where they end -/

/-- Values can be encoded exactly under a condition, and the bytes of a value are read as that value
up to their end, whatever follows. -/
structure SelfDelimiting {α : Type} (encode : α → Result Bytes) (read : Read α) (Fits : α → Prop) :
    Prop where
  /-- What can be encoded. -/
  exists_encode_iff : ∀ a, (∃ bytes, encode a = .ok bytes) ↔ Fits a
  /-- What is read, from any place in a buffer. -/
  runFrom_encode : ∀ a bytes, encode a = .ok bytes → ∀ rest k,
    read.runFrom ⟨bytes ++ rest, k⟩ = (.ok a, ⟨rest, k + bytes.length⟩)

theorem selfDelimiting_of_restores {α : Type} {write : α → Encoding} {read : Read α}
    {Fits : α → Prop} {size : α → Nat} (ht : ∀ a, (write a).Takes (Fits a) (size a))
    (hr : ∀ a, Read.Restores read (write a) a) :
    SelfDelimiting (fun a => (write a).result) read Fits where
  exists_encode_iff a := Encoding.exists_result_iff.trans (ht a).complete
  runFrom_encode a bytes h := by
    obtain ⟨hcomplete, rfl⟩ := Encoding.result_eq_ok_iff.1 h
    exact hr a hcomplete

/-- **Operations are written exactly if their fields fit, and are read as they were.**  Nothing but
the number of entries of a clock and the length of a name, in UTF-8 bytes, can be too large, and for
a list the number of operations. -/
theorem operations_selfDelimiting :
    SelfDelimiting Operation.encode Read.operation (fun op => op.Brief ∧ op.Named) ∧
      SelfDelimiting (fun ops => (Encoding.operations ops).result) Read.operations
        (fun ops => ops.length ≤ Encoding.maxOperations ∧ ∀ op ∈ ops, op.Brief ∧ op.Named) :=
  ⟨selfDelimiting_of_restores (fun _ => Encoding.takes_operation) fun _ => Read.restores_operation,
    selfDelimiting_of_restores (fun _ => Encoding.takes_operations)
      fun _ => Read.restores_operations⟩

/-- The frame of a message is made of its kind and all its bytes. -/
theorem Encoding.frame_eq_ok_iff {e : Encoding} {kind : MessageKind} {frame : Frame} :
    (do let body ← e.result; return { kind, body } : Result Frame) = .ok frame ↔
      e.Complete ∧ frame = ⟨kind, e.written⟩ := by
  rw [Complete, result]
  cases e.failure with
  | none => simp [eq_comm, pure, Except.pure, bind, Except.bind]
  | some reason => simp [bind, Except.bind]

end Wire

open Wire

/-! ### Requests -/

namespace Request

variable {request : Request} {frame : Frame}

theorem restores_read : Read.Restores (read request.kind) request.encoding request := by
  cases request with
  | write kind context =>
    have hread : read (write kind context).kind = readWrite kind.tag := by cases kind <;> rfl
    rw [hread]
    exact Read.restores_kindFields.bind Read.restores_clock.map
  | balance account context => exact Read.restores_string.bind Read.restores_clock.map
  | activate => exact Read.restores_pure
  | deactivate => exact Read.restores_pure
  | dumpLedgerState => exact Read.restores_pure
  | triggerGossip => exact Read.restores_pure
  | pushLedgerSnapshot sender operations =>
    exact Read.restores_string.bind Read.restores_operations.map

/-- What the frame of a request is, and that it is read. -/
theorem reads_of_toFrame (h : request.toFrame = .ok frame) :
    frame = ⟨request.kind, request.encoding.written⟩ ∧
      Read.Reads (read request.kind) request.encoding request := by
  obtain ⟨hcomplete, hframe⟩ := Encoding.frame_eq_ok_iff.1 h
  exact ⟨hframe, restores_read hcomplete⟩

/-- No frame of a request is one of a response. -/
theorem ofFrame_response {body : Bytes} : Response.ofFrame ⟨request.kind, body⟩ =
    .error (.unknownMessageKind request.kind.byte) := by
  cases request with
  | write kind context => cases kind <;> rfl
  | _ => rfl

end Request

/-! ### Responses -/

/-- Four bytes can count the balances of a dump that is not too large. -/
theorem Dump.size_balances_lt {d : Dump} (h : d.wireSize ≤ maxBodySize) :
    d.balances.size < Nat.pow 256 4 := by
  have hlength : d.balances.size ≤ sizes entrySize d.balances.entries :=
    length_le_sizes fun e => Nat.le_add_left 1 _
  have hbody : maxBodySize < Nat.pow 256 4 := by decide
  unfold Dump.wireSize at h
  omega

namespace Response

variable {response : Response} {frame : Frame} {sent : Bytes}

theorem restores_readDump {dump : Dump} (h : dump.balances.size < Nat.pow 256 4) :
    Read.Restores readDump (ledgerState dump).encoding dump := by
  -- the balances are written in order, so to put them in order again changes nothing
  have hbalances : NameMap.ofList dump.balances.entries = dump.balances :=
    NameMap.ofList_entries dump.balances
  simp only [encoding, Encoding.append_assoc]
  refine Read.restores_string.bind (Read.restores_bool.bind (Read.restores_clock.bind
    ((Read.restores_number h).bind ((Read.restores_repeated (fun _ => Read.restores_count)
      dump.balances.entries).bind ?_))))
  rw [hbalances]
  exact Read.restores_operations.map

theorem restores_read (h : response.wireSize ≤ maxBodySize) :
    Read.Restores (read response.kind) response.encoding response := by
  cases response with
  | clock observed => exact Read.restores_clock.map
  | balance held observed => exact Read.restores_word.bind Read.restores_clock.map
  | ack => exact Read.restores_pure
  | ledgerState dump => exact (restores_readDump (Dump.size_balances_lt h)).map
  | gossip attempted delivered failed =>
    rw [encoding, Encoding.append_assoc]
    exact Read.restores_medium.bind (Read.restores_medium.bind Read.restores_medium.map)
  | error code message => exact Read.restores_short.bind Read.restores_string.map

/-- What the frame of a response is, and that it is read if it can be sent. -/
theorem reads_of_toFrame (h : response.toFrame = .ok frame) (hsent : frame.serialize = .ok sent) :
    frame = ⟨response.kind, response.encoding.written⟩ ∧
      Read.Reads (read response.kind) response.encoding response := by
  obtain ⟨hcomplete, rfl⟩ := Encoding.frame_eq_ok_iff.1 h
  refine ⟨rfl, restores_read ?_ hcomplete⟩
  rw [← Encoding.takes_response.length hcomplete]
  exact Frame.exists_serialize_iff.1 ⟨sent, hsent⟩

/-- No frame of a response is one of a request. -/
theorem ofFrame_request {body : Bytes} : Request.ofFrame ⟨response.kind, body⟩ =
    .error (.unknownMessageKind response.kind.byte) := by
  cases response <;> rfl

end Response

/-! ### Messages -/

namespace Wire

/-- What can be sent of a family of messages arrives as it was, and readers of the other family
refuse it by its kind. -/
def Faithful {α β : Type} (toFrame : α → Result Frame) (ofFrame : Frame → Result α)
    (ofOther : Frame → Result β) : Prop :=
  ∀ message frame sent, toFrame message = .ok frame → frame.serialize = .ok sent →
    Frame.parse sent = .ok frame ∧ ofFrame frame = .ok message ∧
      ofOther frame = .error (.unknownMessageKind frame.kind.byte)

/-- **A message that can be sent arrives as it was.** -/
theorem messages_faithful :
    Faithful Request.toFrame Request.ofFrame Response.ofFrame ∧
      Faithful Response.toFrame Response.ofFrame Request.ofFrame := by
  constructor
  · intro request frame sent hframe hsent
    obtain ⟨rfl, hreads⟩ := Request.reads_of_toFrame hframe
    exact ⟨Frame.parse_of_serialize hsent, hreads.exactly, Request.ofFrame_response⟩
  · intro response frame sent hframe hsent
    obtain ⟨rfl, hreads⟩ := Response.reads_of_toFrame hframe hsent
    exact ⟨Frame.parse_of_serialize hsent, hreads.exactly, Response.ofFrame_request⟩

/-- A dump whose clocks store zeros, with an operation that is marked. -/
def markedDump : Response :=
  .ledgerState
    { replica := "B", active := false, clock := .ofEntries [("A", 1), ("C", 0)],
      balances := .ofList [("u", 10), ("broker", 990)],
      operations :=
        [{ kind := .transfer "broker" "u" (-10), origin := "A", context := .ofEntries [("B", 0)],
            timestamp := .ofEntries [("A", 1)], stable := true }] }

theorem exists_serialize_markedDump :
    ∃ frame sent, markedDump.toFrame = .ok frame ∧ frame.serialize = .ok sent := by
  have hcomplete : markedDump.encoding.Complete := rfl
  have hsize : markedDump.encoding.written.length ≤ maxBodySize := by
    rw [Encoding.takes_response.length hcomplete]
    decide
  obtain ⟨sent, hsent⟩ :=
    Frame.exists_serialize_iff (f := ⟨markedDump.kind, markedDump.encoding.written⟩).2 hsize
  exact ⟨_, sent, Response.toFrame_eq_ok hcomplete, hsent⟩

/-- An operation that is marked and whose context stores a zero. -/
def markedOperation : Operation where
  kind := .create "ü"
  origin := "C"
  context := .ofEntries [("A", 2), ("B", 0)]
  timestamp := .ofEntries [("C", 1)]
  stable := true

/-- A push with this operation. -/
def markedPush : Request :=
  .pushLedgerSnapshot "B" [markedOperation]

theorem exists_serialize_markedPush :
    ∃ frame sent, markedPush.toFrame = .ok frame ∧ frame.serialize = .ok sent := by
  have hcomplete : markedPush.encoding.Complete := rfl
  have hsize : markedPush.encoding.written.length ≤ maxBodySize := by
    rw [Encoding.takes_request.length hcomplete]
    decide
  obtain ⟨sent, hsent⟩ :=
    Frame.exists_serialize_iff (f := ⟨markedPush.kind, markedPush.encoding.written⟩).2 hsize
  exact ⟨_, sent, Request.toFrame_eq_ok hcomplete, hsent⟩

theorem markedDump_faithful :
    (∃ frame sent, markedDump.toFrame = .ok frame ∧ frame.serialize = .ok sent ∧
      Frame.parse sent = .ok frame ∧ Response.ofFrame frame = .ok markedDump ∧
      Request.ofFrame frame = .error (.unknownMessageKind frame.kind.byte)) ∧
    ∃ frame sent, markedPush.toFrame = .ok frame ∧ frame.serialize = .ok sent ∧
      Frame.parse sent = .ok frame ∧ Request.ofFrame frame = .ok markedPush ∧
      Response.ofFrame frame = .error (.unknownMessageKind frame.kind.byte) := by
  constructor
  · obtain ⟨frame, sent, hframe, hsent⟩ := exists_serialize_markedDump
    exact ⟨frame, sent, hframe, hsent, messages_faithful.2 markedDump frame sent hframe hsent⟩
  · obtain ⟨frame, sent, hframe, hsent⟩ := exists_serialize_markedPush
    exact ⟨frame, sent, hframe, hsent, messages_faithful.1 markedPush frame sent hframe hsent⟩

end Wire

end GossipLedger
