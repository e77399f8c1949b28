import GossipLedger.Wire.Encoding

/-!
# Reading fields

A `Reader` stands somewhere in a buffer.  A `Read α` takes a value of type `α` from there, or fails;
either way it leaves the reader where it came to, and another read may go on from there.  Reads
check that the bytes they need are there before they take one of them.

`Read.run` reads a value from the beginning of some bytes, `Read.exactly` a value that takes all of
them.  The fields are those that `Encoding` writes.
-/

namespace GossipLedger

namespace Wire

/-- A place in a buffer. -/
structure Reader where
  /-- The bytes that are still to be read. -/
  rest : Bytes
  /-- The number of bytes that have been read. -/
  consumed : Nat := 0
  deriving DecidableEq

namespace Reader

/-- The number of bytes that are still to be read. -/
def remaining (r : Reader) : Nat :=
  r.rest.length

/-- The reader behind the next `n` bytes. -/
def skip (r : Reader) (n : Nat) : Reader :=
  ⟨r.rest.drop n, r.consumed + n⟩

end Reader

/-- Takes a value from a reader, or fails. -/
abbrev Read := ExceptT LedgerError (StateM Reader)

namespace Read

/-- Reads from a place in a buffer. -/
def runFrom {α : Type} (read : Read α) (r : Reader) : Result α × Reader :=
  ExceptT.run read r

/-- Reads from the beginning of some bytes. -/
def run {α : Type} (read : Read α) (bytes : Bytes) : Result α × Reader :=
  read.runFrom { rest := bytes }

/-! ### Bytes -/

/-- The next `n` bytes, which are not yet taken. -/
def peek (n : Nat) : Read Bytes := do
  let r ← get
  let front := r.rest.take n
  if front.length < n then
    throw (.bufferTooShort (r.consumed + n) (r.consumed + r.remaining))
  else return front

/-- Takes the next `n` bytes, which have been looked at. -/
def skip (n : Nat) : Read Unit :=
  modify (·.skip n)

/-- Takes the next `n` bytes. -/
def take (n : Nat) : Read Bytes := do
  let front ← peek n
  skip n
  return front

/-- Succeeds if nothing is left. -/
def finish : Read Unit := do
  let r ← get
  if r.rest.isEmpty then return ()
  else throw (.invalidWireFormat s!"{r.remaining} trailing bytes")

/-- Reads a value that takes all bytes. -/
def exactly {α : Type} (read : Read α) (bytes : Bytes) : Result α :=
  (run (do let a ← read; finish; return a) bytes).1

/-- Reads `n` values; `values` holds those before, the last one first. -/
def repeatedFrom {α : Type} (read : Read α) : (n : Nat) → (values : List α) → Read (List α)
  | 0, values => return values.reverse
  -- written out on the reader, so that it is a loop also for many values
  | n + 1, values => fun r =>
    match read.runFrom r with
    | (.ok value, r) => repeatedFrom read n (value :: values) r
    | (.error e, r) => (.error e, r)

/-- Reads `n` values. -/
def repeated {α : Type} (n : Nat) (read : Read α) : Read (List α) :=
  repeatedFrom read n []

/-! ### Numbers -/

/-- Reads a number of `width` bytes. -/
def number (width : Nat) : Read Nat := do
  let front ← take width
  return ofLittleEndian front

/-- Reads a byte. -/
def byte : Read UInt8 :=
  return UInt8.ofNat (← number 1)

/-- Reads a number of 16 bits. -/
def short : Read UInt16 :=
  return UInt16.ofNat (← number 2)

/-- Reads a number of 32 bits. -/
def medium : Read UInt32 :=
  return UInt32.ofNat (← number 4)

/-- Reads a number of 64 bits. -/
def word : Read UInt64 :=
  return UInt64.ofNat (← number 8)

/-- Reads a number of 64 bits with a sign. -/
def signedWord : Read Int64 :=
  return (← word).toInt64

/-- Reads a truth value. -/
def bool : Read Bool := do
  let b ← byte
  if b = 0 then return false
  else if b = 1 then return true
  else throw (.invalidWireFormat s!"Invalid boolean byte: {b}")

/-! ### Ledger values -/

/-- Reads a string.  Where its bytes are missing or no text, its length has been taken. -/
def string : Read String := do
  let size ← number 2
  let front ← peek size
  match text? front with
  | some s =>
    skip size
    return s
  | none =>
    throw (.invalidWireFormat s!"Invalid UTF-8: {(Utf8Fault.ofBytes front).message}")

/-- Reads an entry of a map from names to counts. -/
def count : Read (String × UInt64) := do
  let name ← string
  let n ← word
  return (name, n)

/-- Reads a clock.  Its entries may stand in any order; of several for one replica the last is
taken. -/
def clock : Read Clock := do
  let size ← number 2
  let entries ← repeated size count
  return .ofEntries entries

/-- Reads what a kind with a given tag is about. -/
def kindFields : KindTag → Read Kind
  | .createAccount => return .create (← string)
  | .deleteAccount => return .delete (← string)
  | .transfer => return .transfer (← string) (← string) (← signedWord)

/-- Reads an operation. -/
def operation : Read Operation := do
  let b ← byte
  match KindTag.ofByte? b with
  | none => throw (.unknownOperationKind b)
  | some tag =>
    let origin ← string
    let kind ← kindFields tag
    let context ← clock
    let timestamp ← clock
    let stable ← bool
    return ⟨kind, origin, context, timestamp, stable⟩

/-- Reads a list of operations. -/
def operations : Read (List Operation) := do
  let size ← number 4
  repeated size operation

end Read

end Wire

namespace Operation

/-- The bytes of an operation. -/
def encode (op : Operation) : Result Wire.Bytes :=
  (Wire.Encoding.operation op).result

/-- The operation whose bytes these are. -/
def decode (bytes : Wire.Bytes) : Result Operation :=
  Wire.Read.exactly Wire.Read.operation bytes

end Operation

end GossipLedger
