import GossipLedger.Clock

/-!
# Operations

An operation is a change of accounts that replicas pass on to each other.  It carries the clock
that its author had observed (`Operation.context`), which every replica has to reach before the
change may be applied (`Operation.isReady`), and the clock of the accepting replica right after it
counted the operation (`Operation.timestamp`), which tells it from every other operation.
-/

namespace GossipLedger

/-- The name of an account. -/
abbrev AccountId := String

/-- The account that holds all money of a fresh ledger and cannot be deleted. -/
def AccountId.broker : AccountId :=
  "broker"

/-- Whether an account is the broker's. -/
def AccountId.isBroker (account : AccountId) : Bool :=
  account = broker

/-- What an operation does to the accounts. -/
inductive Kind where
  /-- Opens an account without money. -/
  | create (account : AccountId)
  /-- Closes an account. -/
  | delete (account : AccountId)
  /-- Moves money from one account to another. -/
  | transfer (source target : AccountId) (amount : Int64)
  deriving DecidableEq, Inhabited

/-- The kinds of operations without their accounts. -/
inductive KindTag where
  | createAccount
  | deleteAccount
  | transfer
  deriving DecidableEq

namespace KindTag

/-- The byte that stands for a tag in messages. -/
def byte : KindTag → UInt8
  | createAccount => 1
  | deleteAccount => 2
  | transfer => 3

/-- The tag that a byte stands for. -/
def ofByte? (b : UInt8) : Option KindTag :=
  if b = 1 then some createAccount
  else if b = 2 then some deleteAccount
  else if b = 3 then some transfer
  else none

/-- The name of a tag. -/
def name : KindTag → String
  | createAccount => "CreateAccount"
  | deleteAccount => "DeleteAccount"
  | transfer => "Transfer"

theorem ofByte?_byte (t : KindTag) : ofByte? t.byte = some t := by
  cases t <;> rfl

end KindTag

namespace Kind

/-- The tag of a kind. -/
def tag : Kind → KindTag
  | create _ => .createAccount
  | delete _ => .deleteAccount
  | transfer .. => .transfer

/-- The account that an operation is about; for a transfer the one that pays. -/
def account : Kind → AccountId
  | create account => account
  | delete account => account
  | transfer source .. => source

/-- Whether an operation is a transfer. -/
def isTransfer : Kind → Bool
  | transfer .. => true
  | _ => false

/-- The text of a kind. -/
def text : Kind → String
  | create account => s!"create({account})"
  | delete account => s!"delete({account})"
  | transfer source target amount => s!"transfer({source} -> {target}, {amount})"

instance : ToString Kind :=
  ⟨text⟩

end Kind

/-- A replicated change of accounts. -/
structure Operation where
  /-- What the operation does. -/
  kind : Kind
  /-- The replica that accepted the operation first. -/
  origin : ReplicaId
  /-- What has to be applied before the operation. -/
  context : Clock
  /-- The clock of the origin right after it counted the operation. -/
  timestamp : Clock
  /-- Whether the operation has been applied where this copy of it is stored. -/
  stable : Bool := false
  deriving DecidableEq, Inhabited

namespace Operation

/-- The number that the origin gave the operation. -/
def sequence (op : Operation) : UInt64 :=
  op.timestamp.get op.origin

/-- Whether a clock has reached everything that the operation depends on. -/
def isReady (op : Operation) (clock : Clock) : Bool :=
  clock.dominates op.context

/-- The operation marked as applied. -/
def marked (op : Operation) : Operation :=
  { op with stable := true }

/-- The operation marked as not yet applied. -/
def unmarked (op : Operation) : Operation :=
  { op with stable := false }

/-- Whether two operations are the same, with clocks that agree. -/
def agrees (a b : Operation) : Bool :=
  a.kind = b.kind && a.origin = b.origin && a.context.agrees b.context
    && a.timestamp.agrees b.timestamp && a.stable == b.stable

/-- The text of an operation. -/
def text (op : Operation) : String :=
  s!"{op.kind}@{op.origin}:{op.sequence} ctx={op.context} ts={op.timestamp}"
    ++ if op.stable then " stable" else ""

instance : ToString Operation :=
  ⟨text⟩

end Operation

end GossipLedger
