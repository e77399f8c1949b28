import GossipLedger.Json.Ledger
import GossipLedger.Json.Report
import GossipLedger.Proofs.Fleet.CausalOrder
import GossipLedger.Proofs.Fleet.EqualLogs
import GossipLedger.Proofs.Replica.Confluence
import GossipLedger.Proofs.Replica.Bookkeeping
import GossipLedger.Proofs.Replica.Replay
import GossipLedger.Proofs.Replica.Growth
import GossipLedger.Service.Mesh
import GossipLedger.Service.Network
import GossipLedger.Simulation.Trial
import GossipLedger.Proofs.Accounts.Conservation
import GossipLedger.Proofs.Accounts.Tally
import GossipLedger.Proofs.Fleet.SingleOwner
import GossipLedger.Proofs.Wire.Writing
import GossipLedger.Proofs.Wire.Reading
import GossipLedger.Proofs.Wire.Decoding
import GossipLedger.Proofs.Wire.RoundTrip
import GossipLedger.Proofs.Wire.Truncation
import GossipLedger.Proofs.Service.Served
import GossipLedger.Proofs.Service.Answered
import GossipLedger.Proofs.Replica.Atomicity
import GossipLedger.Proofs.Replica.OwnWrites
import GossipLedger.Proofs.Replica.Overflow
import GossipLedger.Proofs.Wire.Normalisation
import GossipLedger.Proofs.Wire.Framing
import GossipLedger.Proofs.Wire.Streaming
import GossipLedger.Proofs.Service.Network
import GossipLedger.Proofs.Service.InTurn
import GossipLedger.Proofs.Service.Exchange
import GossipLedger.Proofs.Service.ClientOrder
import GossipLedger.Proofs.Wire.CutStreams
import GossipLedger.Proofs.Log.Promotion
import GossipLedger.Proofs.Replica.Intake
import GossipLedger.Proofs.Simulation.Links
import GossipLedger.Proofs.Simulation.Mirror
import GossipLedger.Proofs.Simulation.AntiEntropy
import GossipLedger.Proofs.Accounts.Reordering
import GossipLedger.Proofs.Replica.StoredZeros
import GossipLedger.Proofs.Clock.Join
import GossipLedger.Proofs.Clock.Hashing
import GossipLedger.Proofs.Log.Marks
import GossipLedger.Proofs.Service.PassingOn
import GossipLedger.Proofs.Service.ErrorRelay
import GossipLedger.Proofs.Service.Registrations
import GossipLedger.Proofs.Simulation.FailedWrites
import GossipLedger.Proofs.Service.Spreading
import GossipLedger.Proofs.Service.GossipRounds
import GossipLedger.Proofs.Simulation.Verdict
import GossipLedger.Proofs.Simulation.Traffic
import GossipLedger.Proofs.Wire.Accounting
import GossipLedger.Proofs.Clock.Sets
import GossipLedger.Proofs.Log.Flat
import GossipLedger.Proofs.Replica.OneList
import GossipLedger.Proofs.Replica.Counters
import GossipLedger.Proofs.Simulation.Counters
