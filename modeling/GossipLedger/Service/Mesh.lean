import GossipLedger.Service.Answer
import GossipLedger.Service.Config

/-!
# Nodes within one process

A mesh is a set of nodes that push their logs to each other by calling each other.  A node finds
its peers in a registry that all share, and reaches the replica that is attached at an address
unless it is marked as unreachable.  A push can be delayed; one that takes longer than the sender
waits does not arrive.

The round that follows a write takes place at once, and its report is given beside the response.
-/

namespace GossipLedger

/-- What is attached at an address. -/
structure Attachment where
  /-- The number of the node whose replica it is. -/
  node : Nat
  /-- Whether pushes get there. -/
  reachable : Bool := true
  /-- How long a push takes to get there, in milliseconds. -/
  delay : Nat := 0
  deriving DecidableEq, Inhabited

/-- Nodes that reach each other within one process. -/
structure Mesh where
  /-- The nodes. -/
  nodes : List Node := []
  /-- The registry of all nodes. -/
  registry : Registry := .empty
  /-- Why the registry cannot be asked, if it cannot. -/
  outage : Option String := none
  /-- What is attached at each address. -/
  attached : NameMap Attachment := ∅
  deriving DecidableEq, Inhabited

namespace Mesh

/-- A node by its number. -/
def node (mesh : Mesh) (i : Nat) : Node :=
  mesh.nodes.getD i default

/-- Changes the replica of a node. -/
def updateReplica (mesh : Mesh) (i : Nat) (f : Replica → Replica) : Mesh :=
  { mesh with nodes := mesh.nodes.modify i fun node => { node with replica := f node.replica } }

/-! ### Surroundings -/

/-- Registers a node at an address. -/
def register (mesh : Mesh) (i : Nat) (address : String) : Mesh :=
  let config := (mesh.node i).config
  { mesh with registry := mesh.registry.register config.service address config.qualifier }

/-- Attaches the replica of a node at an address: reachable and without delay. -/
def attach (mesh : Mesh) (i : Nat) (address : String) : Mesh :=
  { mesh with attached := mesh.attached.insert address { node := i } }

/-- Adds a node, and registers and attaches it at an address as far as is wanted. -/
def add (mesh : Mesh) (config : Config) (address : String) (registered attached : Bool := true) :
    Mesh :=
  let i := mesh.nodes.length
  let mesh := { mesh with nodes := mesh.nodes ++ [.ofConfig config] }
  let mesh := if registered then mesh.register i address else mesh
  if attached then mesh.attach i address else mesh

/-- Changes what is attached at an address, if something is. -/
def updateAttached (mesh : Mesh) (address : String) (f : Attachment → Attachment) : Mesh :=
  match mesh.attached.get? address with
  | some attachment => { mesh with attached := mesh.attached.insert address (f attachment) }
  | none => mesh

/-- Marks an address as reachable or not. -/
def setReachable (mesh : Mesh) (address : String) (reachable : Bool) : Mesh :=
  mesh.updateAttached address ({ · with reachable })

/-- Sets how long a push to an address takes. -/
def setDelay (mesh : Mesh) (address : String) (delay : Nat) : Mesh :=
  mesh.updateAttached address ({ · with delay })

/-! ### Gossip -/

/-- The peers of a node. -/
def peers (mesh : Mesh) (i : Nat) : Result (List Offer) :=
  let config := (mesh.node i).config
  match mesh.outage with
  | some reason => .error (.registryError reason)
  | none => .ok (mesh.registry.others config.service config.qualifier)

/-- The number of the node that a push to an address gets to, within a given time. -/
def target? (mesh : Mesh) (timeout : Nat) (address : String) : Option Nat :=
  match mesh.attached.get? address with
  | some attachment =>
    if attachment.reachable ∧ attachment.delay ≤ timeout then some attachment.node else none
  | none => none

/-- Has a node take in operations. -/
def receive (mesh : Mesh) (i : Nat) (ops : List Operation) : Report × Mesh :=
  (((mesh.node i).replica.receive ops).1, mesh.updateReplica i fun r => (r.receive ops).2)

/-- Pushes operations to a peer. -/
def push (timeout : Nat) (ops : List Operation) (peer : Offer) (mesh : Mesh) : Bool × Mesh :=
  match mesh.target? timeout peer.address with
  | some i => (true, (mesh.receive i ops).2)
  | none => (false, mesh)

/-- Carries out a gossip round of a node.  There are no pushes if its peers cannot be found. -/
def gossip (mesh : Mesh) (i : Nat) : GossipReport × Mesh :=
  let node := mesh.node i
  match mesh.peers i with
  | .ok peers => gossipRound (push node.config.gossipTimeout node.replica.snapshot) peers mesh
  | .error _ => ({}, mesh)

/-! ### Requests -/

/-- What a node has answered: the response, and the reports of the rounds that followed. -/
structure Reply where
  /-- The response. -/
  response : Response
  /-- The reports of the rounds that followed. -/
  rounds : List GossipReport := []

/-- Does what an answer of a node demands. -/
def conclude (mesh : Mesh) (i : Nat) : Answer → Reply × Mesh
  | .reply response => ({ response := response }, mesh)
  | .accepted response =>
    if (mesh.node i).config.gossipOnWrite then
      let (report, mesh) := mesh.gossip i
      ({ response, rounds := [report] }, mesh)
    else ({ response := response }, mesh)
  | .round =>
    let (report, mesh) := mesh.gossip i
    ({ response := Answer.round.response report }, mesh)

/-- Carries out a request at a node. -/
def handle (mesh : Mesh) (i : Nat) (request : Request) : Except CounterOverflow (Reply × Mesh) := do
  let (answer, replica) ← (mesh.node i).replica.serve request
  return (mesh.updateReplica i fun _ => replica).conclude i answer

/-- Carries out the request in a frame at a node. -/
def handleFrame (mesh : Mesh) (i : Nat) (frame : Wire.Frame) :
    Except CounterOverflow (Reply × Mesh) := do
  let (answer, replica) ← (mesh.node i).replica.serveFrame frame
  return (mesh.updateReplica i fun _ => replica).conclude i answer

end Mesh

end GossipLedger
