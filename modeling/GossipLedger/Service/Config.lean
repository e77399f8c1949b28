import GossipLedger.Replica

/-!
# Configuration of a node

How a replica is named, started, announced and run.  All times are in milliseconds.
-/

namespace GossipLedger

/-- The service under which nodes register where nothing else is chosen. -/
def Config.defaultService : String :=
  "ledger"

/-- How long a request may take where nothing else is chosen. -/
def Config.defaultRequestTimeout : Nat :=
  5000

/-- The settings of a node. -/
structure Config where
  /-- The name of the replica. -/
  id : ReplicaId := "A"
  /-- What tells the node from others of its service. -/
  qualifier : String := id
  /-- The service under which the node registers and looks for others. -/
  service : String := Config.defaultService
  /-- The address at which the node listens. -/
  address : String := "127.0.0.1:0"
  /-- The money of the broker at the start. -/
  money : UInt64 := Replica.defaultMoney
  /-- Whether the replica accepts writes from the start. -/
  active : Bool := true
  /-- How long sending the log to one other node may take. -/
  gossipTimeout : Nat := 1000
  /-- How long a request to another node may take. -/
  requestTimeout : Nat := Config.defaultRequestTimeout
  /-- Whether each write is followed by a gossip round. -/
  gossipOnWrite : Bool := true
  deriving DecidableEq, Inhabited

namespace Config

/-- The replica of a node before its first request. -/
def replica (config : Config) : Replica :=
  .fresh config.id config.money config.active

end Config

/-- A node: a replica and how it is run. -/
structure Node where
  /-- The settings of the node. -/
  config : Config
  /-- The replica. -/
  replica : Replica
  deriving DecidableEq, Inhabited

namespace Node

/-- A node before its first request. -/
def ofConfig (config : Config) : Node :=
  ⟨config, config.replica⟩

end Node

end GossipLedger
