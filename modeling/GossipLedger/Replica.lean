import GossipLedger.Accounts
import GossipLedger.Dump
import GossipLedger.Log

/-!
# Replicas

A replica is a log together with what its stable operations have led to: a clock, accounts and
some statistics (`Ledger`).  Clients write to it with `Replica.submit` and ask it with
`Replica.read`; other replicas send it their operations, which `Replica.receive` takes in.

Client and replica exchange clocks.  A client sends along what it has observed, which becomes the
context of its operation, and is told what it has observed after the call: the join of its own
clock with that of the replica.
-/

namespace GossipLedger

/-- What a replica has counted.  The counts have no width: none of them exceeds the number of calls
together with that of the operations that came with them (`Session.counter_le_volume`), so counts
of 64 bits are the same where that is below 2⁶⁴. -/
structure Stats where
  /-- The writes that were accepted. -/
  submitted : Nat := 0
  /-- The writes that were refused. -/
  rejected : Nat := 0
  /-- The batches of operations that other replicas sent. -/
  mergedBatches : Nat := 0
  /-- The operations in those batches that were known. -/
  duplicatesSkipped : Nat := 0
  /-- The operations that became stable. -/
  promoted : Nat := 0
  /-- The stable transfers that had no effect. -/
  transfersSkipped : Nat := 0
  deriving DecidableEq, Inhabited

/-- What the stable operations of a replica have led to. -/
structure Ledger where
  /-- For each replica, the number of its operations that have been counted here. -/
  clock : Clock
  /-- The open accounts. -/
  accounts : Accounts
  /-- The statistics. -/
  stats : Stats := {}
  deriving DecidableEq, Inhabited

/-- The ledger after one more stable operation. -/
def Ledger.apply (op : Operation) (l : Ledger) : Ledger :=
  let (outcome, accounts) := l.accounts.execute op.kind
  let skipped := if outcome ≠ .applied ∧ op.kind.isTransfer then 1 else 0
  { clock := l.clock.advance op.origin op.sequence
    accounts
    stats := { l.stats with
      promoted := l.stats.promoted + 1
      transfersSkipped := l.stats.transfersSkipped + skipped } }

/-- One copy of the ledger. -/
structure Replica extends Ledger where
  /-- The name of the replica, which is its coordinate in every clock. -/
  id : ReplicaId
  /-- The operations that the replica knows. -/
  log : Log := {}
  /-- Whether the replica accepts writes. -/
  active : Bool := true
  deriving DecidableEq, Inhabited

namespace Replica

/-- The money of the broker where nothing else is chosen. -/
def defaultMoney : UInt64 :=
  1000

/-- A replica without operations, in which the broker holds all money. -/
def fresh (id : ReplicaId) (money : UInt64 := defaultMoney) (active : Bool := true) : Replica :=
  { id, active, clock := .zero, accounts := .seeded money }

/-- Whether an operation is waiting for others. -/
def hasPending (r : Replica) : Bool :=
  !r.log.pending.isEmpty

/-- The replica after it has refused a write. -/
def refused (r : Replica) : Replica :=
  { r with stats := { r.stats with rejected := r.stats.rejected + 1 } }

/-- The replica after it has accepted an operation, given the clock that counts it. -/
def accept (r : Replica) (op : Operation) (context : Clock) : Result Clock × Replica :=
  -- the replica counts its operation at once, also where the operation stays pending
  match r.log.insert Ledger.clock Ledger.apply op { r.toLedger with clock := op.timestamp } with
  | .error e => (.error e, { r with clock := op.timestamp })
  | .ok (_, log, ledger) =>
    (.ok (context.merged ledger.clock),
      { r with
        toLedger :=
          { ledger with stats := { ledger.stats with submitted := ledger.stats.submitted + 1 } }
        log })

/-- A client's write.  Answers with what the client has then observed.  The write fails as a whole
if the replica's own count is at its largest value. -/
def submit (r : Replica) (kind : Kind) (context : Clock) :
    Except CounterOverflow (Result Clock × Replica) :=
  if r.active then
    match r.accounts.admission kind with
    | .error e => .ok (.error e, r.refused)
    | .ok () => do
      let timestamp ← r.clock.increment r.id
      if r.log.contains timestamp then
        return (.error (.duplicateOperation timestamp), r)
      else
        return r.accept { kind, origin := r.id, context, timestamp } context
  else .ok (.error .readOnly, r.refused)

/-- A client's question for a balance, which is answered also while writes are refused. -/
def read (r : Replica) (account : AccountId) (context : Clock) : Result (UInt64 × Clock) :=
  match r.accounts.balance? account with
  | some balance => .ok (balance, context.merged r.clock)
  | none => .error (.accountNotFound account)

/-- Makes the replica accept writes. -/
def activate (r : Replica) : Replica :=
  { r with active := true }

/-- Makes the replica refuse writes. -/
def deactivate (r : Replica) : Replica :=
  { r with active := false }

/-- Takes in operations that another replica has sent. -/
def receive (r : Replica) (ops : List Operation) : Report × Replica :=
  let (report, log, ledger) := r.log.absorb Ledger.clock Ledger.apply ops r.toLedger
  (report,
    { r with
      toLedger := { ledger with
        stats := { ledger.stats with
          mergedBatches := ledger.stats.mergedBatches + 1
          duplicatesSkipped := ledger.stats.duplicatesSkipped + report.duplicates } }
      log })

/-- The operations that the replica passes on to others. -/
def snapshot (r : Replica) : List Operation :=
  r.log.operations

/-- The whole content of the replica. -/
def dump (r : Replica) : Dump where
  replica := r.id
  active := r.active
  clock := r.clock
  balances := r.accounts.balances
  operations := r.snapshot

end Replica

end GossipLedger
