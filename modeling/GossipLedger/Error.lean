import GossipLedger.Operation

/-!
# Errors

Each way in which the ledger refuses something is one constructor of `LedgerError`, which carries
what its text needs.  An error has a numeric code, under which it is reported to other processes;
`LedgerError.ofCode` is the error that the receiver makes of code and text.
-/

namespace GossipLedger

/-- Why something was refused. -/
inductive LedgerError where
  /-- There is no such account. -/
  | accountNotFound (account : AccountId)
  /-- The account exists already. -/
  | accountAlreadyExists (account : AccountId)
  /-- The account may not be deleted. -/
  | protectedAccount (account : AccountId)
  /-- The account that is to be deleted holds money. -/
  | accountNotEmpty (account : AccountId) (balance : UInt64)
  /-- The paying account holds less than the amount. -/
  | insufficientFunds (account : AccountId) (balance : UInt64) (amount : Int64)
  /-- The amount of a transfer is zero or less. -/
  | nonPositiveAmount (amount : Int64)
  /-- The two accounts of a transfer are the same. -/
  | sameAccount (account : AccountId)
  /-- The replica accepts no writes. -/
  | readOnly
  /-- The log holds an operation with this timestamp. -/
  | duplicateOperation (timestamp : Clock)
  /-- The bytes of a message break a rule of the format. -/
  | invalidWireFormat (reason : String)
  /-- The bytes of a message end too early. -/
  | bufferTooShort (expected actual : Nat)
  /-- No kind of operation has this byte. -/
  | unknownOperationKind (byte : UInt8)
  /-- No kind of message has this byte, or not one that may stand here. -/
  | unknownMessageKind (byte : UInt8)
  /-- A value could not be written as text. -/
  | serialization (reason : String)
  /-- The registry could not be asked. -/
  | registryError (reason : String)
  /-- A connection broke. -/
  | transportError (reason : String)
  /-- A connection could not be opened. -/
  | connectionFailed (reason : String)
  /-- No answer came in time. -/
  | timeout
  /-- The answer was not one to this request. -/
  | unexpectedResponse (reason : String)
  /-- Another process reported an error. -/
  | remote (code : UInt16) (message : String)
  deriving DecidableEq, Inhabited

namespace LedgerError

/-- The name of what an error is about. -/
def name : LedgerError → String
  | accountNotFound _ => "AccountNotFound"
  | accountAlreadyExists _ => "AccountAlreadyExists"
  | protectedAccount _ => "ProtectedAccount"
  | accountNotEmpty .. => "AccountNotEmpty"
  | insufficientFunds .. => "InsufficientFunds"
  | nonPositiveAmount _ => "NonPositiveAmount"
  | sameAccount _ => "SameAccount"
  | readOnly => "ReadOnly"
  | duplicateOperation _ => "DuplicateOperation"
  | invalidWireFormat _ => "InvalidWireFormat"
  | bufferTooShort .. => "BufferTooShort"
  | unknownOperationKind _ => "UnknownOperationKind"
  | unknownMessageKind _ => "UnknownMessageKind"
  | serialization _ => "Serialization"
  | registryError _ => "RegistryError"
  | transportError _ => "TransportError"
  | connectionFailed _ => "ConnectionFailed"
  | timeout => "Timeout"
  | unexpectedResponse _ => "UnexpectedResponse"
  | remote .. => "Remote"

/-- The text of an error. -/
def message : LedgerError → String
  | accountNotFound account => s!"Account not found: {account}"
  | accountAlreadyExists account => s!"Account already exists: {account}"
  | protectedAccount account => s!"Account {account} is protected from deletion"
  | accountNotEmpty account balance => s!"Account {account} is not empty: balance {balance}"
  | insufficientFunds account balance amount =>
    s!"Insufficient funds in {account}: balance {balance}, requested {amount}"
  | nonPositiveAmount amount => s!"Transfer amount must be positive, got {amount}"
  | sameAccount account => s!"Cannot transfer from {account} to itself"
  | readOnly => "Replica is read-only"
  | duplicateOperation timestamp =>
    s!"Duplicate operation: origin timestamp {timestamp} already in log"
  | invalidWireFormat reason => s!"Invalid wire format: {reason}"
  | bufferTooShort expected actual => s!"Buffer too short: expected {expected}, got {actual}"
  | unknownOperationKind byte => s!"Unknown operation kind: {byte}"
  | unknownMessageKind byte => s!"Unknown message kind: {byte}"
  | serialization reason => s!"Serialization error: {reason}"
  | registryError reason => s!"Registry error: {reason}"
  | transportError reason => s!"Transport error: {reason}"
  | connectionFailed reason => s!"Connection failed: {reason}"
  | timeout => "Request timed out"
  | unexpectedResponse reason => s!"Unexpected response: {reason}"
  | remote code message => s!"Remote error {code}: {message}"

/-- The number under which an error is reported to other processes. -/
def code : LedgerError → UInt16
  | accountNotFound _ => 100
  | accountAlreadyExists _ => 101
  | protectedAccount _ => 102
  | accountNotEmpty .. => 103
  | insufficientFunds .. => 104
  | nonPositiveAmount _ => 105
  | sameAccount _ => 106
  | readOnly => 200
  | duplicateOperation _ => 300
  | invalidWireFormat _ => 400
  | bufferTooShort .. => 401
  | unknownOperationKind _ => 402
  | unknownMessageKind _ => 403
  | serialization _ => 404
  | registryError _ => 500
  | transportError _ => 501
  | connectionFailed _ => 502
  | timeout => 503
  | unexpectedResponse _ => 504
  | remote code _ => code

/-- Whether an error answers a request that the ledger's rules refuse: it was found before
anything was changed. -/
def isDomain (e : LedgerError) : Bool :=
  100 ≤ e.code && e.code ≤ 299

/-- The error that the receiver of a code and a text makes of them. -/
def ofCode (code : UInt16) (message : String) : LedgerError :=
  if code = 200 then readOnly
  else if code = 503 then timeout
  else remote code message

end LedgerError

/-- An answer, or the reason why there is none. -/
abbrev Result (α : Type) := Except LedgerError α

end GossipLedger
