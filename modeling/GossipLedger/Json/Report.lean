import GossipLedger.Json
import GossipLedger.Replica
import GossipLedger.Service.Gossip

/-!
# Statistics and reports in JSON

Counts that a replica and its gossip give out, as objects with one member for each count.
-/

namespace GossipLedger

/-- The object of some counts. -/
def Json.ofNats (counts : List (String × Nat)) : Json :=
  .object (counts.map fun c => (c.1, .integer c.2))

/-- The JSON form of what a replica has counted. -/
def Stats.toJson (s : Stats) : Json :=
  .ofNats [("submitted", s.submitted), ("rejected", s.rejected),
    ("merged_batches", s.mergedBatches), ("duplicates_skipped", s.duplicatesSkipped),
    ("promoted", s.promoted), ("transfers_skipped", s.transfersSkipped)]

/-- The JSON form of what became of operations. -/
def Report.toJson (r : Report) : Json :=
  .ofNats [("inserted", r.inserted), ("duplicates", r.duplicates), ("promoted", r.promoted)]

/-- The JSON form of how a gossip round went. -/
def GossipReport.toJson (r : GossipReport) : Json :=
  .ofNats [("attempted", r.attempted), ("delivered", r.delivered), ("failed", r.failed)]

end GossipLedger
