import GossipLedger.Error
import GossipLedger.Wire.Bytes

/-!
# Frames

A message travels as a frame: a header of eight bytes and a body.  The header holds two fixed bytes,
the version of the format, the kind of the message, and the length of the body in four bytes.

`Frame.serialize` and `Frame.parse` are inverse to each other: the bytes of a frame are just those
that parse to it, and a body that is too large is refused on either side.
-/

namespace GossipLedger

namespace Wire

/-! ### Kinds of messages -/

/-- What a message is. -/
inductive MessageKind where
  | createAccount
  | deleteAccount
  | transferTo
  | balance
  | activate
  | deactivate
  | dumpLedgerState
  | triggerGossip
  | pushLedgerSnapshot
  | clockReply
  | balanceReply
  | ack
  | ledgerStateReply
  | gossipReply
  | errorReply
  deriving DecidableEq, Inhabited

namespace MessageKind

/-- All kinds. -/
def all : List MessageKind :=
  [createAccount, deleteAccount, transferTo, balance, activate, deactivate, dumpLedgerState,
    triggerGossip, pushLedgerSnapshot, clockReply, balanceReply, ack, ledgerStateReply,
    gossipReply, errorReply]

/-- The byte that stands for a kind in a header. -/
def byte : MessageKind → UInt8
  | createAccount => 0x01
  | deleteAccount => 0x02
  | transferTo => 0x03
  | balance => 0x04
  | activate => 0x10
  | deactivate => 0x11
  | dumpLedgerState => 0x12
  | triggerGossip => 0x13
  | pushLedgerSnapshot => 0x20
  | clockReply => 0x80
  | balanceReply => 0x81
  | ack => 0x82
  | ledgerStateReply => 0x83
  | gossipReply => 0x84
  | errorReply => 0xFF

/-- The kind that a byte stands for. -/
def ofByte? (b : UInt8) : Option MessageKind :=
  all.find? (·.byte = b)

/-- The kind of a request that asks for an operation. -/
def ofTag : KindTag → MessageKind
  | .createAccount => createAccount
  | .deleteAccount => deleteAccount
  | .transfer => transferTo

/-- Whether a message of this kind answers another. -/
def isResponse (kind : MessageKind) : Bool :=
  0x80 ≤ kind.byte

/-- The name of a kind. -/
def name : MessageKind → String
  | createAccount => "CreateAccount"
  | deleteAccount => "DeleteAccount"
  | transferTo => "TransferTo"
  | balance => "Balance"
  | activate => "Activate"
  | deactivate => "Deactivate"
  | dumpLedgerState => "DumpLedgerState"
  | triggerGossip => "TriggerGossip"
  | pushLedgerSnapshot => "PushLedgerSnapshot"
  | clockReply => "ClockReply"
  | balanceReply => "BalanceReply"
  | ack => "Ack"
  | ledgerStateReply => "LedgerStateReply"
  | gossipReply => "GossipReply"
  | errorReply => "ErrorReply"

theorem ofByte?_byte (kind : MessageKind) : ofByte? kind.byte = some kind := by
  cases kind <;> rfl

theorem byte_of_ofByte? {b : UInt8} {kind : MessageKind} (h : ofByte? b = some kind) :
    kind.byte = b := by
  have := List.find?_some h
  simpa using this

end MessageKind

/-! ### Headers -/

/-- The number of bytes of a header. -/
def headerSize : Nat :=
  8

/-- The two bytes that every header begins with. -/
def magic : UInt8 × UInt8 :=
  (0x4C, 0x47)

/-- The version of the format. -/
def wireVersion : UInt8 :=
  1

/-- The greatest length of a body. -/
def maxBodySize : Nat :=
  16777216

/-- What stands before the body of a frame. -/
structure Header where
  /-- The version of the format that the frame follows. -/
  version : UInt8 := wireVersion
  /-- What the message is. -/
  kind : MessageKind
  /-- The length of the body. -/
  bodyLength : UInt32
  deriving DecidableEq, Inhabited

namespace Header

/-- The bytes of a header. -/
def bytes (h : Header) : Bytes :=
  magic.1 :: magic.2 :: h.version :: h.kind.byte :: littleEndian 4 h.bodyLength.toNat

/-- Reads a header from the beginning of some bytes. -/
def parse : Bytes → Result Header
  | m₁ :: m₂ :: version :: kindByte :: l₀ :: l₁ :: l₂ :: l₃ :: _ =>
    if (m₁, m₂) ≠ magic then .error (.invalidWireFormat "Bad frame magic")
    else if version ≠ wireVersion then
      .error (.invalidWireFormat s!"Unsupported wire version: {version}")
    else
      match MessageKind.ofByte? kindByte with
      | none => .error (.unknownMessageKind kindByte)
      | some kind =>
        let size := ofLittleEndian [l₀, l₁, l₂, l₃]
        if size > maxBodySize then
          .error (.invalidWireFormat s!"Body too large: {size} > {maxBodySize}")
        else .ok { version, kind, bodyLength := .ofNat size }
  | bytes => .error (.bufferTooShort headerSize bytes.length)

end Header

/-! ### Frames -/

/-- A message as it travels. -/
structure Frame where
  /-- What the message is. -/
  kind : MessageKind
  /-- The fields of the message. -/
  body : Bytes
  deriving DecidableEq, Inhabited

namespace Frame

/-- The header of a frame. -/
def header (f : Frame) : Header where
  kind := f.kind
  bodyLength := .ofNat f.body.length

/-- The number of bytes of a frame. -/
def size (f : Frame) : Nat :=
  headerSize + f.body.length

/-- The bytes of a frame. -/
def serialize (f : Frame) : Result Bytes :=
  if f.body.length > maxBodySize then
    .error (.invalidWireFormat s!"Frame too large: {f.body.length} > {maxBodySize}")
  else .ok (f.header.bytes ++ f.body)

/-- The frame whose bytes these are. -/
def parse (bytes : Bytes) : Result Frame := do
  let header ← Header.parse bytes
  let total := headerSize + header.bodyLength.toNat
  if bytes.length < total then .error (.bufferTooShort total bytes.length)
  else if bytes.length > total then .error (.invalidWireFormat "Trailing bytes after frame body")
  else .ok { kind := header.kind, body := bytes.drop headerSize }

/-- The frame of a header and a body, whose length has to be the one in the header. -/
def ofParts (header : Header) (body : Bytes) : Result Frame :=
  if body.length ≠ header.bodyLength.toNat then
    .error (.bufferTooShort header.bodyLength.toNat body.length)
  else .ok { kind := header.kind, body }

end Frame

end Wire

end GossipLedger
