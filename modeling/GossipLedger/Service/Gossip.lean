import GossipLedger.Service.Registry

/-!
# Gossip rounds

In a gossip round a node pushes its whole log to every other node of its service.  A push that fails
is not repeated: the next round sends everything again, and what a replica knows already it passes
over.
-/

namespace GossipLedger

/-- How the pushes of a gossip round went.  The counts have no width: none of them exceeds the number
of peers (`report_gossipRound`), so counts of 32 bits are the same where that is below 2³². -/
structure GossipReport where
  /-- The pushes that were tried. -/
  attempted : Nat := 0
  /-- The pushes that arrived. -/
  delivered : Nat := 0
  /-- The pushes that did not. -/
  failed : Nat := 0
  deriving DecidableEq, Inhabited

namespace GossipReport

/-- Counts one more push. -/
def count (report : GossipReport) (delivered : Bool) : GossipReport :=
  { attempted := report.attempted + 1
    delivered := report.delivered + if delivered then 1 else 0
    failed := report.failed + if delivered then 0 else 1 }

end GossipReport

/-- Pushes to one peer after the other and reports how it went.  A push changes the surroundings
and tells whether it arrived. -/
def gossipRound {σ : Type} (push : Offer → σ → Bool × σ) (peers : List Offer) (surroundings : σ) :
    GossipReport × σ :=
  peers.foldl
    (fun (report, s) peer =>
      let (delivered, s) := push peer s
      (report.count delivered, s))
    ({}, surroundings)

end GossipLedger
