import GossipLedger.Simulation.Cluster
import GossipLedger.Simulation.Workload

/-!
# Trials

A trial lets simulated clients write to a cluster with unreliable links, then heals the links, has
every replica push its log once more, and looks whether the replicas have converged with all their
money.

In each step one client writes to a replica that has caught up with it: nothing is pending there,
and the replica has seen everything that the client has.  If there is none, the step is deferred.
-/

namespace GossipLedger

/-- The settings of a trial. -/
structure TrialConfig where
  /-- The number of replicas. -/
  replicas : Nat := 3
  /-- The number of clients. -/
  clients : Nat := 4
  /-- The number of steps. -/
  steps : Nat := 60
  /-- How the links treat packets until they are healed. -/
  link : LinkConfig := .good
  /-- The seed of chance. -/
  seed : UInt64 := 1
  /-- The money of the broker at the start. -/
  money : UInt64 := 1000000
  /-- How many ticks to wait at most for packets on their way. -/
  maxTicks : Nat := 5000
  deriving DecidableEq, Inhabited

namespace TrialConfig

/-- A short trial with perfect links. -/
def minimal : TrialConfig where
  replicas := 2
  clients := 1
  steps := 10
  link := .perfect

/-- The usual trial. -/
def standard : TrialConfig :=
  {}

/-- A long trial with hostile links. -/
def stress : TrialConfig where
  replicas := 5
  clients := 8
  steps := 300
  link := .hostile

/-- The settings with a given name. -/
def named? : String → Option TrialConfig
  | "minimal" => some minimal
  | "standard" => some standard
  | "stress" => some stress
  | _ => none

end TrialConfig

/-- How a trial has ended. -/
structure TrialResult where
  /-- The writes that were accepted. -/
  accepted : Nat := 0
  /-- The writes that were refused. -/
  rejected : Nat := 0
  /-- The steps without a replica to write to. -/
  deferred : Nat := 0
  /-- The logs that were taken in. -/
  merged : Nat := 0
  /-- The stable transfers without effect, on all replicas together. -/
  transfersSkipped : Nat := 0
  /-- How the replicas differ, if they do. -/
  divergence : Option Divergence := none
  deriving DecidableEq, Inhabited

namespace TrialResult

/-- Whether the replicas have converged. -/
def passed (result : TrialResult) : Bool :=
  result.divergence.isNone

/-- The number of steps. -/
def total (result : TrialResult) : Nat :=
  result.accepted + result.rejected + result.deferred

end TrialResult

/-- A trial under way. -/
structure Trial where
  /-- The settings. -/
  config : TrialConfig
  /-- The cluster. -/
  cluster : Cluster
  /-- The clients. -/
  workload : Workload
  /-- What has been counted. -/
  result : TrialResult := {}

namespace Trial

/-- A trial before its first step. -/
def ofConfig (config : TrialConfig) : Trial where
  config
  cluster := .ofSeed
    { replicas := config.replicas, link := config.link, money := config.money } config.seed
  workload := .ofSeed config.clients config.seed

/-- Cuts all links from and to a replica. -/
def isolate (t : Trial) (i : Nat) : Trial :=
  { t with cluster := t.cluster.isolate i }

/-- The numbers of the replicas that have caught up with a client. -/
def caughtUp (t : Trial) (client : Nat) : List Nat :=
  let context := (t.workload.client client).context
  t.cluster.replicas.zipIdx.filterMap fun (r, i) =>
    if !r.hasPending ∧ r.clock.dominates context then some i else none

/-- Lets a client write to a replica. -/
def write (t : Trial) (client replica : Nat) : Except CounterOverflow Trial := do
  let (kind, workload) := (Workload.next client).run t.workload
  let (result, cluster) ← t.cluster.submit replica kind (workload.client client).context
  match result with
  | .ok observed =>
    return { t with
      cluster
      workload := workload.accepted client kind observed
      result := { t.result with accepted := t.result.accepted + 1 } }
  | .error _ =>
    -- the client learns nothing, but a name it has tried for an account is used up
    return { t with
      cluster, workload
      result := { t.result with rejected := t.result.rejected + 1 } }

/-- Carries out one step: at most one write, and a tick. -/
def step (t : Trial) : Except CounterOverflow Trial := do
  let (client, workload) := Workload.pickClient.run t.workload
  let (replica, workload) := (Workload.pick (t.caughtUp client)).run workload
  let t := { t with workload }
  let t ← match replica with
    | some replica => t.write client replica
    | none => pure { t with result := { t.result with deferred := t.result.deferred + 1 } }
  return { t with cluster := t.cluster.tick.2 }

/-- Carries out a number of steps. -/
def steps (t : Trial) : (n : Nat) → Except CounterOverflow Trial
  | 0 => .ok t
  | n + 1 => do (← t.step).steps n

/-- Waits for the packets on their way, heals the links, and has every log pushed once more. -/
def settle (t : Trial) : Trial :=
  let cluster := (t.cluster.runUntilQuiet t.config.maxTicks).2.heal
  { t with cluster := (cluster.antiEntropy t.config.maxTicks).2 }

/-- Looks how the replicas differ. -/
def verify (t : Trial) : TrialResult :=
  let replicas := t.cluster.replicas
  let verdict := do
    convergence replicas
    conservation replicas t.config.money
  { t.result with
    merged := t.cluster.stats.merged
    transfersSkipped := replicas.foldl (fun n r => n + r.stats.transfersSkipped) 0
    divergence :=
      match verdict with
      | .ok () => none
      | .error divergence => some divergence }

/-- Carries out all steps, and then heals the links. -/
def run (t : Trial) : Except CounterOverflow Trial := do
  return (← t.steps t.config.steps).settle

end Trial

end GossipLedger
