import GossipLedger.Service.Client
import GossipLedger.Service.Config
import GossipLedger.Service.Connection

/-!
# Nodes that reach each other over connections

A network has endpoints at numbered addresses.  A node at an endpoint serves connections as long as
it listens; a scripted endpoint takes one frame of each connection, sends fixed bytes and closes, or
stays silent.  A request takes one connection: a frame goes out, and the first frame of what comes
back is the reply (`Network.exchange`).  Nodes push their logs to each other with such requests,
too, and a push has arrived once it is acknowledged.

On a host without a route to its own addresses nodes start and register, but no connection opens
(`Network.routed`).
-/

namespace GossipLedger

open Wire

/-- What can be connected to. -/
inductive Endpoint where
  /-- A node. -/
  | node (node : Node) (listening : Bool)
  /-- An endpoint that sends fixed bytes after the first frame, or leaves the other side waiting. -/
  | scripted (reply : Bytes) (silent : Bool)
  deriving DecidableEq, Inhabited

/-- Nodes that reach each other over connections. -/
structure Network where
  /-- The endpoints, by number. -/
  endpoints : List Endpoint := []
  /-- The registry of all nodes. -/
  registry : Registry := .empty
  /-- Whether connections to the endpoints can be opened. -/
  routed : Bool := true
  deriving DecidableEq, Inhabited

namespace Network

/-! ### Endpoints -/

/-- The address of an endpoint. -/
def address (i : Nat) : String :=
  toString i

/-- The number of the endpoint with an address. -/
def number? (network : Network) (address : String) : Option Nat :=
  (List.range network.endpoints.length).find? (Network.address · = address)

/-- The node at an endpoint. -/
def node? (network : Network) (i : Nat) : Option Node :=
  match network.endpoints[i]? with
  | some (.node node _) => some node
  | _ => none

/-- Puts another replica into a node. -/
def setReplica (network : Network) (i : Nat) (replica : Replica) : Network :=
  { network with endpoints := network.endpoints.modify i fun
      | .node node listening => .node { node with replica } listening
      | other => other }

/-- Adds an endpoint. -/
def add (network : Network) (endpoint : Endpoint) : Network :=
  { network with endpoints := network.endpoints ++ [endpoint] }

/-- Registers an address under a service. -/
def register (network : Network) (i : Nat) (service qualifier : String) : Network :=
  { network with registry := network.registry.register service (address i) qualifier }

/-- Starts a node, which listens and registers. -/
def start (network : Network) (config : Config) : Network :=
  (network.add (.node (.ofConfig config) true)).register network.endpoints.length
    config.service config.qualifier

/-- Stops a node, which no longer listens and is no longer registered. -/
def stop (network : Network) (i : Nat) : Network :=
  match network.node? i with
  | some node =>
    { network with
      endpoints := network.endpoints.set i (.node node false)
      registry := network.registry.unregister node.config.service (address i) }
  | none => network

/-! ### Connections -/

/-- Why a connection cannot be opened where there is no route. -/
def noRoute : String :=
  "Network is unreachable (os error 101)"

/-- Why a connection cannot be opened where nobody listens. -/
def refused : String :=
  "Connection refused (os error 111)"

/-- The endpoint that a connection leads to. -/
def connect (network : Network) (address : String) : Result (Nat × Endpoint) :=
  if !network.routed then .error (.connectionFailed s!"{address}: {noRoute}")
  else
    match network.number? address with
    | none => .error (.connectionFailed s!"{address}: {refused}")
    | some i =>
      match network.endpoints[i]? with
      | some (.node node true) => .ok (i, .node node true)
      | some (.scripted reply silent) => .ok (i, .scripted reply silent)
      | _ => .error (.connectionFailed s!"{address}: {refused}")

/-- The frame that comes back over a connection. -/
def reply (address : String) (bytes : Bytes) : Result Frame := do
  match ← Stream.readFrame bytes with
  | some (frame, _) => return frame
  | none => throw (.transportError s!"{address} closed the connection without replying")

/-- What a scripted endpoint does with the first frame of a connection. -/
def follow (address : String) (script : Bytes) (silent : Bool) : Result Frame :=
  if silent then .error .timeout else reply address script

/-! ### Gossip -/

/-- Sends a push over a connection.  A node takes it in without turning to others. -/
def exchangePush (network : Network) (address : String) (push : Request) :
    Result Response × Network :=
  match push.toFrame, network.connect address with
  | .error e, _ => (.error e, network)
  | _, .error e => (.error e, network)
  | .ok frame, .ok (i, endpoint) =>
    match frame.serialize, endpoint with
    | .error e, _ => (.error e, network)
    | .ok _, .scripted script silent =>
      (follow address script silent >>= Response.ofFrame, network)
    | .ok bytes, .node node _ =>
      let (replies, replica) := node.replica.connection (fun _ => {}) bytes
      (reply address replies.flatten >>= Response.ofFrame, network.setReplica i replica)

/-- Pushes a log to a peer; it has arrived once it is acknowledged. -/
def push (request : Request) (peer : Offer) (network : Network) : Bool × Network :=
  let (result, network) := network.exchangePush peer.address request
  (result.toOption = some .ack, network)

/-- Carries out a gossip round of a node. -/
def gossip (network : Network) (i : Nat) : GossipReport × Network :=
  match network.node? i with
  | some node =>
    gossipRound (push node.replica.push)
      (network.registry.others node.config.service node.config.qualifier) network
  | none => ({}, network)

/-! ### Requests -/

/-- A network, and the reports of the gossip rounds that writes have started, each with the number
of the node. -/
abbrev Logged := Network × List (Nat × GossipReport)

/-- Does what an answer of a node demands, and gives the reply in bytes if it can be sent. -/
def conclude (i : Nat) (gossipOnWrite : Bool) (answer : Answer) (s : Logged) :
    Option Bytes × Logged :=
  let (network, rounds) := s
  match answer with
  | .reply response => (response.bytes.toOption, s)
  | .accepted response =>
    if gossipOnWrite then
      let (report, network) := network.gossip i
      (response.bytes.toOption, network, rounds ++ [(i, report)])
    else (response.bytes.toOption, s)
  | .round =>
    -- the report of this round is in the reply, so it is not logged
    let (report, network) := network.gossip i
    ((Answer.round.response report).bytes.toOption, network, rounds)

/-- Carries out the request in a frame at a node.  There is no reply where a count would have to
grow beyond its largest value. -/
def respond (i : Nat) (frame : Frame) (s : Logged) : Option Bytes × Logged :=
  match s.1.node? i with
  | none => (none, s)
  | some node =>
    match node.replica.serveFrame frame with
    | .ok (answer, replica) =>
      conclude i node.config.gossipOnWrite answer (s.1.setReplica i replica, s.2)
    | .error _ => (none, s)

/-- Sends bytes over a connection to an endpoint; what comes back, reply by reply. -/
def send (network : Network) (address : String) (bytes : Bytes) : Result (List Bytes × Logged) := do
  match ← network.connect address with
  | (i, .node ..) => return Connection.serve (respond i) bytes (network, [])
  | (_, .scripted _ true) => throw .timeout
  | (_, .scripted script false) =>
    match Stream.readFrame bytes with
    | .ok (some _) => return ([script], network, [])
    | _ => return ([], network, [])

/-- Sends a request over a connection and waits for the reply. -/
def exchange (network : Network) (address : String) (frame : Frame) :
    Result Frame × Logged :=
  match network.connect address, frame.serialize with
  | .error e, _ => (.error e, network, [])
  | _, .error e => (.error e, network, [])
  | .ok _, .ok bytes =>
    match network.send address bytes with
    | .ok (replies, s) => (reply address replies.flatten, s)
    | .error e => (.error e, network, [])

/-- A request of a client to the node at an address. -/
def call (network : Network) (address : String) (client : Client) (request : Request) :
    Result Response × Client × Logged :=
  match (client.ask request).toFrame with
  | .error e =>
    let (result, client) := client.conclude request (.error e)
    (result, client, network, [])
  | .ok frame =>
    let (reply, s) := network.exchange address frame
    let (result, client) := client.conclude request reply
    (result, client, s)

end Network

end GossipLedger
