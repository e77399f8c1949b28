import GossipLedger.Operation
import GossipLedger.Simulation.Chance

/-!
# Workloads

A workload is a number of simulated clients whose writes do not get in each other's way: a client
touches only its own accounts and the broker's, and closes only accounts that were never paid into.

What the clients do is left to chance: a workload takes one random number after the other from
`Workload.chance`.
-/

namespace GossipLedger

/-- An account of a simulated client. -/
structure OwnAccount where
  /-- The name of the account. -/
  account : AccountId
  /-- Whether money was ever paid into it. -/
  funded : Bool := false
  deriving DecidableEq, Inhabited

/-- A simulated client. -/
structure SimulatedClient where
  /-- The name of the client, with which its accounts begin. -/
  name : String
  /-- Everything that the client has observed. -/
  context : Clock := .zero
  /-- The accounts that the client has opened and not closed, in the order of their opening. -/
  accounts : List OwnAccount := []
  /-- The number of accounts that the client has tried to open. -/
  opened : Nat := 0
  deriving DecidableEq, Inhabited

namespace SimulatedClient

/-- The client after a write of it was accepted. -/
def accepted (client : SimulatedClient) (kind : Kind) (observed : Clock) : SimulatedClient :=
  { client with
    context := client.context.merged observed
    accounts :=
      match kind with
      | .create account => client.accounts ++ [{ account := account }]
      | .delete account => client.accounts.filter (·.account ≠ account)
      | .transfer _ target _ => markFirst target client.accounts }
where
  markFirst (target : AccountId) : List OwnAccount → List OwnAccount
    | [] => []
    | own :: rest =>
      if own.account = target then { own with funded := true } :: rest
      else own :: markFirst target rest

end SimulatedClient

/-- Simulated clients and what chance has in store for them. -/
structure Workload where
  /-- The clients. -/
  clients : List SimulatedClient
  /-- The random numbers. -/
  chance : Nat → Nat
  /-- How many random numbers have been used. -/
  used : Nat := 0

namespace Workload

/-- The greatest amount of a transfer. -/
def maxAmount : Nat :=
  20

/-- A workload of `n` clients. -/
def fresh (n : Nat) (chance : Nat → Nat) : Workload where
  clients := (List.range n).map fun i => { name := s!"c{i}" }
  chance

/-- A workload of `n` clients in which chance belongs to a seed. -/
def ofSeed (n : Nat) (seed : UInt64) : Workload :=
  fresh n (Chance.number (Chance.mix seed))

/-- A client by its number. -/
def client (w : Workload) (i : Nat) : SimulatedClient :=
  w.clients.getD i default

/-- One of the numbers below `bound`. -/
def draw (bound : Nat) : StateM Workload Nat := fun w =>
  (Chance.below (w.chance w.used) bound, { w with used := w.used + 1 })

/-- The number of one of the clients. -/
def pickClient : StateM Workload Nat := do
  draw (← get).clients.length

/-- One of several things, if there is one. -/
def pick {α : Type} (choices : List α) : StateM Workload (Option α) :=
  if choices.isEmpty then return none
  else return choices[← draw choices.length]?

/-- Opens a new account for a client. -/
def openAccount (i : Nat) : StateM Workload Kind := fun w =>
  let client := w.client i
  (.create s!"{client.name}-{client.opened}",
    { w with clients := w.clients.set i { client with opened := client.opened + 1 } })

/-- What a client does with one of its accounts. -/
def useAccount (roll amount : Nat) (own : OwnAccount) : Kind :=
  if roll < 30 ∧ !own.funded then .delete own.account
  else if roll < 70 ∨ !own.funded then .transfer .broker own.account (.ofNat amount)
  else .transfer own.account .broker (.ofNat amount)

/-- The next write of a client.  It opens an account if it has none, and one time in five. -/
def next (i : Nat) : StateM Workload Kind := do
  let amount := (← draw maxAmount) + 1
  let roll ← draw 100
  let accounts := ((← get).client i).accounts
  if accounts.isEmpty ∨ roll < 20 then openAccount i
  else
    match ← pick accounts with
    | some own => return useAccount roll amount own
    -- there are accounts to pick from, so this does not occur
    | none => openAccount i

/-- Tells a client that a write of it was accepted. -/
def accepted (w : Workload) (i : Nat) (kind : Kind) (observed : Clock) : Workload :=
  { w with clients := w.clients.modify i (·.accepted kind observed) }

end Workload

end GossipLedger
