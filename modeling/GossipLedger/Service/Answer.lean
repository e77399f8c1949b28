import GossipLedger.Replica
import GossipLedger.Service.Gossip
import GossipLedger.Wire.Message

/-!
# Answering requests

`Replica.serve` carries out a request at one replica.  Some requests concern the other replicas,
too: an accepted write is to be followed by a gossip round, and a request for gossip is answered
with the report of one.  The `Answer` says so, and leaves the round to those who know the peers.

A request that is refused, and a frame that holds no request, are answered with an error response.
-/

namespace GossipLedger

/-- What is to be answered to a request, and what has to happen besides. -/
inductive Answer where
  /-- Only the response is to be sent. -/
  | reply (response : Response)
  /-- A write was accepted: the response is to be sent, and a gossip round is due. -/
  | accepted (response : Response)
  /-- A gossip round was asked for, and its report is to be sent. -/
  | round
  deriving DecidableEq

namespace Answer

/-- The response, where `report` is that of the round that was asked for. -/
def response (report : GossipReport) : Answer → Response
  | reply response => response
  | accepted response => response
  | round => .gossip (.ofNat report.attempted) (.ofNat report.delivered) (.ofNat report.failed)

/-- The answer to a write. -/
def ofWrite : Result Clock → Answer
  | .ok observed => accepted (.clock observed)
  | .error e => reply (.ofError e)

/-- The answer to a question for a balance. -/
def ofRead : Result (UInt64 × Clock) → Answer
  | .ok (held, observed) => reply (.balance held observed)
  | .error e => reply (.ofError e)

end Answer

namespace Replica

/-- Carries out a request.  Fails if a count would have to grow beyond its largest value. -/
def serve (r : Replica) : Request → Except CounterOverflow (Answer × Replica)
  | .write kind context => do
    let (result, r) ← r.submit kind context
    return (.ofWrite result, r)
  | .balance account context => .ok (.ofRead (r.read account context), r)
  | .activate => .ok (.reply .ack, r.activate)
  | .deactivate => .ok (.reply .ack, r.deactivate)
  | .dumpLedgerState => .ok (.reply (.ledgerState r.dump), r)
  | .triggerGossip => .ok (.round, r)
  | .pushLedgerSnapshot _ operations => .ok (.reply .ack, (r.receive operations).2)

/-- Carries out the request in a frame. -/
def serveFrame (r : Replica) (frame : Wire.Frame) : Except CounterOverflow (Answer × Replica) :=
  match Request.ofFrame frame with
  | .ok request => r.serve request
  | .error e => .ok (.reply (.ofError e), r)

/-- The request by which a replica passes on its log. -/
def push (r : Replica) : Request :=
  .pushLedgerSnapshot r.id r.snapshot

end Replica

end GossipLedger
