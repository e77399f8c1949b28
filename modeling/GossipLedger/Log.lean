import GossipLedger.Error

/-!
# The operation log

A log holds each operation that a replica knows once.  Its stable part lists the operations that
have been applied, in the order of their application; its pending part lists those whose context
the replica's clock has not reached, in the order of their arrival.

`Log.settle` moves operations from the pending to the stable part as long as one is ready: always
the first one that is, and after each it begins anew, since applying an operation moves the clock.
What is applied to is a state of any type `σ` that has a clock.  `Log.insert` adds an operation of
the replica itself, `Log.absorb` adds what another replica has sent.
-/

namespace GossipLedger

/-- The operations that a replica knows. -/
structure Log where
  /-- The applied operations, in the order of their application. -/
  stable : List Operation := []
  /-- The operations that wait for others, in the order of their arrival. -/
  pending : List Operation := []
  deriving DecidableEq, Inhabited

/-- What became of the operations that were added to a log.  The counts have no width: none of them
exceeds the number of operations that were added or had waited (`Replica.Settled.report_le`), so
counts of 32 bits are the same where that is below 2³². -/
structure Report where
  /-- The operations that the log did not know. -/
  inserted : Nat := 0
  /-- The operations that the log knew. -/
  duplicates : Nat := 0
  /-- The operations that became stable. -/
  promoted : Nat := 0
  deriving DecidableEq, Inhabited

namespace Log

/-- The log without operations. -/
def empty : Log :=
  {}

/-- All operations, the stable ones first. -/
def operations (log : Log) : List Operation :=
  log.stable ++ log.pending

/-- The number of operations. -/
def size (log : Log) : Nat :=
  log.operations.length

/-- Whether the log holds an operation with a timestamp that agrees with this one. -/
def contains (log : Log) (timestamp : Clock) : Bool :=
  let stamp := timestamp.stamp
  log.operations.any fun op => op.timestamp.stamp = stamp

/-- Adds a pending operation, unless its timestamp is known. -/
def push? (log : Log) (op : Operation) : Option Log :=
  if log.contains op.timestamp then none else some { log with pending := log.pending ++ [op] }

/-! ### Stabilization -/

/-- The first operation that is ready under a clock, and the other operations. -/
def takeReady? (clock : Clock) : List Operation → Option (Operation × List Operation)
  | [] => none
  | op :: rest =>
    if op.isReady clock then some (op, rest)
    else (takeReady? clock rest).map fun found => (found.1, op :: found.2)

variable {σ : Type}

/-- Moves at most `bound` ready operations into the stable part, each as soon as it is the first
one that is ready. -/
def settleUpTo (clockOf : σ → Clock) (apply : Operation → σ → σ) :
    (bound : Nat) → Log → σ → Log × σ
  | 0, log, s => (log, s)
  | bound + 1, log, s =>
    match takeReady? (clockOf s) log.pending with
    | none => (log, s)
    | some (op, rest) =>
      settleUpTo clockOf apply bound ⟨log.stable ++ [op.marked], rest⟩ (apply op.marked s)

/-- Moves ready operations into the stable part until none is ready.  There are no more steps than
pending operations. -/
def settle (clockOf : σ → Clock) (apply : Operation → σ → σ) (log : Log) (s : σ) : Log × σ :=
  settleUpTo clockOf apply log.pending.length log s

/-- The number of operations that have become stable between two states of a log. -/
def promotedSince (now before : Log) : Nat :=
  now.stable.length - before.stable.length

/-! ### Additions -/

/-- Adds an operation that the replica has accepted itself.  Its timestamp has to be new. -/
def insert (clockOf : σ → Clock) (apply : Operation → σ → σ) (log : Log) (op : Operation) (s : σ) :
    Result (Report × Log × σ) :=
  match log.push? op with
  | none => .error (.duplicateOperation op.timestamp)
  | some grown =>
    let (settled, s) := settle clockOf apply grown s
    .ok ({ inserted := 1, promoted := settled.promotedSince log }, settled, s)

/-- Adds one of the operations that another replica has sent.  Whether it is stable here is for
this log to find out. -/
def collect (state : Report × Log) (op : Operation) : Report × Log :=
  match state.2.push? op.unmarked with
  | some grown => ({ state.1 with inserted := state.1.inserted + 1 }, grown)
  | none => ({ state.1 with duplicates := state.1.duplicates + 1 }, state.2)

/-- Adds the operations that another replica has sent, except for those that are known. -/
def absorb (clockOf : σ → Clock) (apply : Operation → σ → σ) (log : Log) (ops : List Operation)
    (s : σ) : Report × Log × σ :=
  let (report, grown) := ops.foldl collect ({}, log)
  -- where nothing is new, the pending part is left alone
  if report.inserted = 0 then (report, grown, s)
  else
    let (settled, s) := settle clockOf apply grown s
    ({ report with promoted := settled.promotedSince grown }, settled, s)

end Log

end GossipLedger
