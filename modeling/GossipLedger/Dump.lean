import GossipLedger.Operation

/-!
# Dumps

A dump is the whole content of a replica at one moment, for an administrator to read.
-/

namespace GossipLedger

/-- The content of a replica. -/
structure Dump where
  /-- The name of the replica. -/
  replica : ReplicaId
  /-- Whether the replica accepts writes. -/
  active : Bool
  /-- The clock of the replica. -/
  clock : Clock
  /-- The balances of the open accounts. -/
  balances : NameMap UInt64
  /-- The log, its stable part first. -/
  operations : List Operation
  deriving DecidableEq, Inhabited

namespace Dump

/-- The number of operations that are marked as stable. -/
def stableCount (d : Dump) : Nat :=
  d.operations.countP (·.stable)

/-- The number of operations that are not marked as stable. -/
def pendingCount (d : Dump) : Nat :=
  d.operations.length - d.stableCount

end Dump

end GossipLedger
