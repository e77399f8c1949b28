import GossipLedger.Dump
import GossipLedger.Wire.Frame
import GossipLedger.Wire.Reader

/-!
# Requests and responses

What replicas are asked and what they answer, and the frames of both.  A request of a client
carries the client's clock.  A request with operations comes from another replica.

`Request.toFrame` and `Response.toFrame` write the fields of a message, `Request.ofFrame` and
`Response.ofFrame` read them; a frame of the other family is of an unknown kind to either.
-/

namespace GossipLedger

open Wire

/-- What a replica is asked. -/
inductive Request where
  /-- To change the accounts. -/
  | write (kind : Kind) (context : Clock)
  /-- How much money an account holds. -/
  | balance (account : AccountId) (context : Clock)
  /-- To accept writes. -/
  | activate
  /-- To refuse writes. -/
  | deactivate
  /-- For its whole content. -/
  | dumpLedgerState
  /-- To send its log to the other replicas. -/
  | triggerGossip
  /-- To take in the log of another replica. -/
  | pushLedgerSnapshot (sender : ReplicaId) (operations : List Operation)
  deriving DecidableEq, Inhabited

/-- What a replica answers. -/
inductive Response where
  /-- The write was accepted; what the client has then observed. -/
  | clock (observed : Clock)
  /-- The balance of an account, and what the client has then observed. -/
  | balance (held : UInt64) (observed : Clock)
  /-- The request was carried out. -/
  | ack
  /-- The content of the replica. -/
  | ledgerState (dump : Dump)
  /-- How many replicas were sent the log, how many took it in, and how many did not. -/
  | gossip (attempted delivered failed : UInt32)
  /-- The request was refused. -/
  | error (code : UInt16) (message : String)
  deriving DecidableEq, Inhabited

namespace Request

/-- The kind of a request's message. -/
def kind : Request → MessageKind
  | write kind _ => .ofTag kind.tag
  | balance .. => .balance
  | activate => .activate
  | deactivate => .deactivate
  | dumpLedgerState => .dumpLedgerState
  | triggerGossip => .triggerGossip
  | pushLedgerSnapshot .. => .pushLedgerSnapshot

/-- The request with another context, if it carries one. -/
def withContext (context : Clock) : Request → Request
  | write kind _ => write kind context
  | balance account _ => balance account context
  | request => request

/-- Writes the fields of a request. -/
def encoding : Request → Encoding
  | write kind context => .kindFields kind ++ .clock context
  | balance account context => .string account ++ .clock context
  | activate => .empty
  | deactivate => .empty
  | dumpLedgerState => .empty
  | triggerGossip => .empty
  | pushLedgerSnapshot sender operations => .string sender ++ .operations operations

/-- The frame of a request. -/
def toFrame (request : Request) : Result Frame := do
  let body ← request.encoding.result
  return { kind := request.kind, body }

/-- The bytes of a request's frame. -/
def bytes (request : Request) : Result Bytes := do
  let frame ← request.toFrame
  frame.serialize

/-- Reads the fields of a write. -/
def readWrite (tag : KindTag) : Read Request :=
  return write (← Read.kindFields tag) (← Read.clock)

/-- Reads the fields of a request of some kind. -/
def read : MessageKind → Read Request
  | .createAccount => readWrite .createAccount
  | .deleteAccount => readWrite .deleteAccount
  | .transferTo => readWrite .transfer
  | .balance => return balance (← Read.string) (← Read.clock)
  | .activate => return activate
  | .deactivate => return deactivate
  | .dumpLedgerState => return dumpLedgerState
  | .triggerGossip => return triggerGossip
  | .pushLedgerSnapshot => return pushLedgerSnapshot (← Read.string) (← Read.operations)
  | other => throw (.unknownMessageKind other.byte)

/-- The request of a frame. -/
def ofFrame (frame : Frame) : Result Request :=
  Read.exactly (read frame.kind) frame.body

/-- What arrives when a request is sent. -/
def arrived (request : Request) : Result Request := do
  let frame ← Frame.parse (← request.bytes)
  ofFrame frame

end Request

namespace Response

/-- The kind of a response's message. -/
def kind : Response → MessageKind
  | clock _ => .clockReply
  | balance .. => .balanceReply
  | ack => .ack
  | ledgerState _ => .ledgerStateReply
  | gossip .. => .gossipReply
  | error .. => .errorReply

/-- The response that reports an error. -/
def ofError (e : LedgerError) : Response :=
  error e.code e.message

/-- The response, or the error that it reports. -/
def toResult : Response → Result Response
  | error code message => .error (.ofCode code message)
  | response => .ok response

/-- Writes the fields of a response. -/
def encoding : Response → Encoding
  | clock observed => .clock observed
  | balance held observed => .word held ++ .clock observed
  | ack => .empty
  | ledgerState dump =>
    .string dump.replica ++ .bool dump.active ++ .clock dump.clock
      ++ .number 4 dump.balances.size ++ .concat (dump.balances.entries.map Encoding.count)
      ++ .operations dump.operations
  | gossip attempted delivered failed =>
    .number 4 attempted.toNat ++ .number 4 delivered.toNat ++ .number 4 failed.toNat
  | error code message => .number 2 code.toNat ++ .string message

/-- The frame of a response. -/
def toFrame (response : Response) : Result Frame := do
  let body ← response.encoding.result
  return { kind := response.kind, body }

/-- The bytes of a response's frame. -/
def bytes (response : Response) : Result Bytes := do
  let frame ← response.toFrame
  frame.serialize

/-- Reads a dump.  Of several balances of one account the last is taken. -/
def readDump : Read Dump := do
  let replica ← Read.string
  let active ← Read.bool
  let clock ← Read.clock
  let size ← Read.number 4
  let balances ← Read.repeated size Read.count
  let operations ← Read.operations
  return { replica, active, clock, balances := .ofList balances, operations }

/-- Reads the fields of a response of some kind. -/
def read : MessageKind → Read Response
  | .clockReply => return clock (← Read.clock)
  | .balanceReply => return balance (← Read.word) (← Read.clock)
  | .ack => return ack
  | .ledgerStateReply => return ledgerState (← readDump)
  | .gossipReply => return gossip (← Read.medium) (← Read.medium) (← Read.medium)
  | .errorReply => return error (← Read.short) (← Read.string)
  | other => throw (.unknownMessageKind other.byte)

/-- The response of a frame. -/
def ofFrame (frame : Frame) : Result Response :=
  Read.exactly (read frame.kind) frame.body

/-- What arrives when a response is sent. -/
def arrived (response : Response) : Result Response := do
  let frame ← Frame.parse (← response.bytes)
  ofFrame frame

end Response

end GossipLedger
