import GossipLedger.Wire.Message

/-!
# Clients

A client sends requests to one replica after another.  It carries a context, the join of all clocks
that the replicas have told it, and sends it along with each request about accounts.  So a replica
knows what the client has observed, wherever that was.

Each request has one kind of response that settles it; any other is an error.  A request that fails
leaves the client as it was.
-/

namespace GossipLedger

/-- Whether a response settles a request. -/
def Request.isSettledBy : Request → Response → Bool
  | write .., .clock _ => true
  | balance .., .balance .. => true
  | activate, .ack => true
  | deactivate, .ack => true
  | dumpLedgerState, .ledgerState _ => true
  | triggerGossip, .gossip .. => true
  | pushLedgerSnapshot .., .ack => true
  | _, _ => false

/-- What a response tells about the replica's clock. -/
def Response.observed? : Response → Option Clock
  | clock observed => some observed
  | balance _ observed => some observed
  | _ => none

/-- A client. -/
structure Client where
  /-- Everything that the client has observed. -/
  context : Clock := .zero
  deriving DecidableEq, Inhabited

namespace Client

/-- The client after it has been told a clock. -/
def observe (client : Client) (clock : Clock) : Client :=
  ⟨client.context.merged clock⟩

/-- The client after a response. -/
def learn (client : Client) (response : Response) : Client :=
  match response.observed? with
  | some clock => client.observe clock
  | none => client

/-- A request as the client sends it: with its context. -/
def ask (client : Client) (request : Request) : Request :=
  request.withContext client.context

/-- The response in a reply to a request. -/
def settle (request : Request) (reply : Result Wire.Frame) : Result Response := do
  let response ← (← Response.ofFrame (← reply)).toResult
  if request.isSettledBy response then return response
  else throw (.unexpectedResponse response.kind.name)

/-- The end of a request: its outcome, and what the client has learned. -/
def conclude (client : Client) (request : Request) (reply : Result Wire.Frame) :
    Result Response × Client :=
  match settle request reply with
  | .ok response => (.ok response, client.learn response)
  | .error e => (.error e, client)

end Client

end GossipLedger
