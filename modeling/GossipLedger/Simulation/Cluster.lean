import GossipLedger.Convergence
import GossipLedger.Service.Answer
import GossipLedger.Simulation.Link

/-!
# Clusters

A cluster is a number of replicas with an unreliable link from each to every other.  Logs are pushed
over the links in the form in which they are sent between processes, and are read again on arrival.

After the links have been healed, one round in which every replica pushes its log
(`Cluster.antiEntropy`) brings each operation to every replica.
-/

namespace GossipLedger

open Wire

/-- The settings of a cluster. -/
structure ClusterConfig where
  /-- The number of replicas. -/
  replicas : Nat := 3
  /-- How the links treat packets at the start. -/
  link : LinkConfig := .good
  /-- The money of the broker at the start. -/
  money : UInt64 := Replica.defaultMoney
  /-- How many milliseconds a tick takes. -/
  tickTime : Nat := 10
  /-- Whether each write is followed by a push to all other replicas. -/
  gossipOnWrite : Bool := true
  deriving DecidableEq, Inhabited

/-- The link from one replica to another. -/
structure Channel where
  /-- The number of the replica that sends. -/
  source : Nat
  /-- The number of the replica that receives. -/
  target : Nat
  /-- The link. -/
  link : Link Bytes

/-- Lets time pass on a link, and gives what arrives, with the number of the receiver. -/
def Channel.tick (time : Nat) (ch : Channel) : List (Nat × Bytes) × Channel :=
  let (packets, link) := ch.link.tick time
  (packets.map fun packet => (ch.target, packet.data), { ch with link })

/-- What a cluster has counted.  The counts have no width: none of them exceeds twice the number of
links times that of pushes (`Cluster.counter_le`), so counts of 64 bits are the same where that
product is below 2⁶³. -/
structure ClusterStats where
  /-- The logs that were sent, one for each link. -/
  sent : Nat := 0
  /-- The logs that were taken in. -/
  merged : Nat := 0
  /-- The packets that held no log. -/
  rejected : Nat := 0
  deriving DecidableEq, Inhabited

/-- Replicas with links between them. -/
structure Cluster where
  /-- The settings. -/
  config : ClusterConfig
  /-- The replicas. -/
  replicas : List Replica
  /-- The links, by sender and then by receiver. -/
  channels : List Channel
  /-- The statistics. -/
  stats : ClusterStats := {}

/-- The name of a replica by its number: a letter as long as there are letters. -/
def ReplicaId.ofNumber (i : Nat) : ReplicaId :=
  if i < 26 then (Char.ofNat ('A'.toNat + i)).toString else s!"R{i}"

namespace Cluster

/-- The pairs of different numbers below `n`, by the first and then by the second. -/
def pairs (n : Nat) : List (Nat × Nat) :=
  (List.range n).flatMap fun source =>
    ((List.range n).filter (· ≠ source)).map fun target => (source, target)

/-- A cluster without operations.  The links take what chance decides from `chance`, which gives
it for the number of a link and of a packet. -/
def fresh (config : ClusterConfig) (chance : Nat → Nat → Draws) : Cluster where
  config
  replicas := (List.range config.replicas).map fun i => .fresh (.ofNumber i) config.money
  channels := (pairs config.replicas).mapIdx fun k (source, target) =>
    { source, target, link := { config := config.link, chance := chance k } }

/-- A cluster without operations in which chance belongs to a seed. -/
def ofSeed (config : ClusterConfig) (seed : UInt64) : Cluster :=
  fresh config fun k => Draws.ofSeed (seed + UInt64.ofNat k)

/-- The number of replicas. -/
def size (c : Cluster) : Nat :=
  c.replicas.length

/-- The number of packets on their way. -/
def inFlight (c : Cluster) : Nat :=
  (c.channels.flatMap (·.link.queue)).length

/-- The link from one replica to another. -/
def link? (c : Cluster) (source target : Nat) : Option (Link Bytes) :=
  (c.channels.find? fun ch => ch.source = source ∧ ch.target = target).map (·.link)

/-! ### Links -/

/-- Changes the links that `p` selects by sender and receiver. -/
def updateLinks (c : Cluster) (p : Nat → Nat → Bool) (f : Link Bytes → Link Bytes) : Cluster :=
  { c with
    channels := c.channels.map fun ch =>
      if p ch.source ch.target then { ch with link := f ch.link } else ch }

/-- Changes the configuration of one link. -/
def setLink (c : Cluster) (source target : Nat) (config : LinkConfig) : Cluster :=
  c.updateLinks (fun s t => s = source ∧ t = target) (·.configure config)

/-- Cuts all links from and to a replica. -/
def isolate (c : Cluster) (i : Nat) : Cluster :=
  c.updateLinks (fun s t => s = i ∨ t = i) (·.configure .cut)

/-- Makes all links perfect. -/
def heal (c : Cluster) : Cluster :=
  c.updateLinks (fun _ _ => true) (·.configure .perfect)

/-! ### Pushes -/

/-- Sends bytes from a replica to every other. -/
def broadcast (c : Cluster) (i : Nat) (bytes : Bytes) : Cluster :=
  let sent := c.stats.sent + c.channels.countP fun ch => ch.source = i
  { c.updateLinks (fun s _ => s = i) (·.send bytes) with stats := { c.stats with sent } }

/-- Pushes the log of a replica to every other. -/
def gossip (c : Cluster) (i : Nat) : Result Unit × Cluster :=
  match c.replicas[i]? with
  | none => (.ok (), c)
  | some r =>
    match r.push.bytes with
    | .ok bytes => (.ok (), c.broadcast i bytes)
    | .error e => (.error e, c)

/-- A client's write to a replica.  Where the push that follows cannot be made, the write stands
and its outcome is the error.  A number without replica stands for one that changes nothing. -/
def submit (c : Cluster) (i : Nat) (kind : Kind) (context : Clock) :
    Except CounterOverflow (Result Clock × Cluster) :=
  match c.replicas[i]? with
  | none => .ok (.ok context, c)
  | some r => do
    let (result, r) ← r.submit kind context
    let c := { c with replicas := c.replicas.set i r }
    match result with
    | .error e => return (.error e, c)
    | .ok observed =>
      if c.config.gossipOnWrite then
        let (pushed, c) := c.gossip i
        return (pushed.map fun _ => observed, c)
      else return (.ok observed, c)

/-- Changes a replica. -/
def updateReplica (c : Cluster) (i : Nat) (f : Replica → Replica) : Cluster :=
  { c with replicas := c.replicas.modify i f }

/-- Has a replica take in operations. -/
def merge (c : Cluster) (i : Nat) (ops : List Operation) : Report × Cluster :=
  match c.replicas[i]? with
  | none => ({}, c)
  | some r =>
    let (report, r) := r.receive ops
    (report, { c with replicas := c.replicas.set i r })

/-! ### Time -/

/-- Takes in what has arrived at a replica. -/
def receive (c : Cluster) (arrival : Nat × Bytes) : Cluster :=
  match Frame.parse arrival.2 >>= Request.ofFrame with
  | .ok (.pushLedgerSnapshot _ ops) =>
    { (c.merge arrival.1 ops).2 with stats := { c.stats with merged := c.stats.merged + 1 } }
  | _ => { c with stats := { c.stats with rejected := c.stats.rejected + 1 } }

/-- Lets the time of a tick pass on all links, and then takes in what has arrived.  Gives the
number of packets. -/
def tick (c : Cluster) : Nat × Cluster :=
  let ticked := c.channels.map (Channel.tick c.config.tickTime)
  let arrivals := ticked.flatMap (·.1)
  (arrivals.length, arrivals.foldl receive { c with channels := ticked.map (·.2) })

/-- Lets at most `bound` ticks pass, until no packet is on its way.  Gives the number of ticks. -/
def runUntilQuiet (c : Cluster) : (bound : Nat) → Nat × Cluster
  | 0 => (0, c)
  | bound + 1 =>
    if c.inFlight = 0 then (0, c)
    else
      let (ticks, c) := c.tick.2.runUntilQuiet bound
      (ticks + 1, c)

/-- Pushes the logs of several replicas, up to the first that cannot be pushed. -/
def gossipAll (c : Cluster) : List Nat → Result Unit × Cluster
  | [] => (.ok (), c)
  | i :: rest =>
    match c.gossip i with
    | (.ok (), c) => c.gossipAll rest
    | (.error e, c) => (.error e, c)

/-- Pushes the log of every replica, and lets at most `bound` ticks pass until all have arrived. -/
def antiEntropy (c : Cluster) (bound : Nat) : Result Unit × Cluster :=
  match c.gossipAll (List.range c.size) with
  | (.ok (), c) => (.ok (), (c.runUntilQuiet bound).2)
  | (.error e, c) => (.error e, c)

/-- Succeeds if the replicas have converged. -/
def checkConvergence (c : Cluster) : Except Divergence Unit :=
  convergence c.replicas

end Cluster

end GossipLedger
