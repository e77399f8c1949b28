import GossipLedger.Replica

/-!
# Convergence

Replicas have converged when none has a pending operation and all have the same clock, the same
stable operations and the same balances (`convergence`).  Stable operations are compared as a set,
for concurrent ones may have become stable in different orders.  `conservation` holds where each
replica has a given amount of money.

Both look at the replicas in their order, compare each with the first, and report the first way in
which one of them differs (`Divergence`).
-/

namespace GossipLedger

/-- How a replica differs from what is expected of it. -/
inductive Divergence where
  /-- Operations are pending. -/
  | pending (replica : ReplicaId) (count : Nat)
  /-- The clock is another one. -/
  | clock (replica : ReplicaId) (expected actual : Clock)
  /-- Stable operations are missing, or there are others. -/
  | stableLog (replica : ReplicaId) (missing extra : Nat)
  /-- The balances are other ones. -/
  | balances (replica : ReplicaId)
  /-- There is more or less money. -/
  | conservation (replica : ReplicaId) (expected actual : UInt64)
  deriving DecidableEq

/-- The name of what a divergence is about. -/
def Divergence.name : Divergence → String
  | pending .. => "Pending"
  | clock .. => "Clock"
  | stableLog .. => "StableLog"
  | balances _ => "Balances"
  | conservation .. => "Conservation"

/-- The text of a divergence. -/
def Divergence.message : Divergence → String
  | pending replica count => s!"replica {replica} still has {count} pending operations"
  | clock replica expected actual =>
    s!"replica {replica} clock {actual} differs from {expected}"
  | stableLog replica missing extra =>
    s!"replica {replica} stable log differs: {missing} missing, {extra} extra"
  | balances replica => s!"replica {replica} balances differ"
  | conservation replica expected actual =>
    s!"replica {replica} holds {actual} in total, expected {expected}"

/-- The number of stamps in the first set that are not in the second. -/
def Clock.Pool.excess (a b : Clock.Pool) : Nat :=
  a.stamps.countP fun stamp => !b.stamps.contains stamp

namespace Replica

/-- The timestamps of the stable operations. -/
def stableStamps (r : Replica) : Clock.Pool :=
  .ofList (r.log.stable.map (·.timestamp))

/-- Fails if an operation is pending. -/
def checkSettled (r : Replica) : Except Divergence Unit :=
  if r.hasPending then .error (.pending r.id r.log.pending.length) else .ok ()

/-- Fails where a replica differs from the first one. -/
def checkAgainst (first r : Replica) : Except Divergence Unit :=
  let expected := first.stableStamps
  let actual := r.stableStamps
  let missing := expected.excess actual
  let extra := actual.excess expected
  if !r.clock.agrees first.clock then .error (.clock r.id first.clock r.clock)
  else if missing ≠ 0 ∨ extra ≠ 0 then .error (.stableLog r.id missing extra)
  else if r.accounts.toList ≠ first.accounts.toList then .error (.balances r.id)
  else .ok ()

/-- Fails if a replica has not as much money as expected. -/
def checkTotal (expected : UInt64) (r : Replica) : Except Divergence Unit :=
  if r.accounts.total = expected then .ok ()
  else .error (.conservation r.id expected r.accounts.total)

end Replica

/-- Succeeds if the replicas have converged. -/
def convergence (replicas : List Replica) : Except Divergence Unit := do
  replicas.forM Replica.checkSettled
  match replicas with
  | [] => return ()
  | first :: rest => rest.forM first.checkAgainst

/-- Succeeds if each replica has the expected amount of money. -/
def conservation (replicas : List Replica) (expected : UInt64) : Except Divergence Unit :=
  replicas.forM (Replica.checkTotal expected)

end GossipLedger
