import GossipLedger.Error
import GossipLedger.Wire.Bytes

/-!
# Writing fields

An `Encoding` is what writing a value leaves behind: the bytes, and the reason why it stopped if it
did.  Encodings are joined with `++`; behind one that stopped nothing is written, while its bytes
stay.  `Encoding.result` is for those who want all bytes or none.

The fields of all messages are written here:

* a string is its length in two bytes and its UTF-8 bytes;
* a clock is the number of its entries in two bytes and, by replica, name and count of each;
* an operation is a byte for its kind, origin, account, for a transfer also target and amount,
  then context, timestamp, and a byte that tells whether it is stable.
-/

namespace GossipLedger

namespace Wire

/-- The bytes that were written, and why writing stopped. -/
structure Encoding where
  /-- The bytes that were written. -/
  written : Bytes
  /-- Why writing stopped, unless it came to its end. -/
  failure : Option LedgerError := none
  deriving DecidableEq

namespace Encoding

/-- Writes nothing. -/
def empty : Encoding :=
  ⟨[], none⟩

/-- Stops. -/
def fail (e : LedgerError) : Encoding :=
  ⟨[], some e⟩

/-- Writes what the second does behind what the first does, unless the first stopped. -/
protected def append (a b : Encoding) : Encoding :=
  match a.failure with
  | none => ⟨a.written ++ b.written, b.failure⟩
  | some _ => a

instance : Append Encoding :=
  ⟨Encoding.append⟩

/-- Writes several things in their order. -/
def concat (es : List Encoding) : Encoding :=
  es.foldr (· ++ ·) empty

/-- All bytes, or the reason why there are not all. -/
def result (e : Encoding) : Result Bytes :=
  match e.failure with
  | none => .ok e.written
  | some reason => .error reason

/-! ### Numbers -/

/-- Writes the lowest bytes of a number. -/
def number (width n : Nat) : Encoding :=
  ⟨littleEndian width n, none⟩

/-- Writes a byte. -/
def byte (b : UInt8) : Encoding :=
  number 1 b.toNat

/-- Writes a number of 64 bits. -/
def word (n : UInt64) : Encoding :=
  number 8 n.toNat

/-- Writes a number of 64 bits with a sign, as the remainder modulo `2 ^ 64`. -/
def signedWord (n : Int64) : Encoding :=
  word n.toUInt64

/-- Writes a truth value. -/
def bool (b : Bool) : Encoding :=
  byte (if b then 1 else 0)

/-! ### Ledger values -/

/-- The greatest length of a string in bytes, and the greatest number of entries of a clock: both
are written in two bytes. -/
def maxShort : Nat :=
  65535

/-- Writes a string. -/
def string (s : String) : Encoding :=
  if s.utf8ByteSize > maxShort then
    fail (.invalidWireFormat s!"String too long: {s.utf8ByteSize} > {maxShort}")
  else number 2 s.utf8ByteSize ++ ⟨ofText s, none⟩

/-- Writes an entry of a map from names to counts. -/
def count (e : String × UInt64) : Encoding :=
  string e.1 ++ word e.2

/-- Writes a clock. -/
def clock (c : Clock) : Encoding :=
  if c.size > maxShort then fail (.invalidWireFormat "Clock has too many entries")
  else number 2 c.size ++ concat (c.entries.map count)

/-- Writes what a kind is about. -/
def kindFields : Kind → Encoding
  | .create account => string account
  | .delete account => string account
  | .transfer source target amount => string source ++ string target ++ signedWord amount

/-- Writes an operation. -/
def operation (op : Operation) : Encoding :=
  byte op.kind.tag.byte ++ string op.origin ++ kindFields op.kind
    ++ clock op.context ++ clock op.timestamp ++ bool op.stable

/-- The greatest number of operations in a list: it is written in four bytes. -/
def maxOperations : Nat :=
  4294967295

/-- Writes a list of operations. -/
def operations (ops : List Operation) : Encoding :=
  if ops.length > maxOperations then fail (.invalidWireFormat "Too many operations")
  else number 4 ops.length ++ concat (ops.map operation)

end Encoding

end Wire

end GossipLedger
