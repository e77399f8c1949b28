import GossipLedger.Simulation.Chance

/-!
# Unreliable links

A link carries packets one way.  It can lose packets, one at a time or several in a row, delay
them, let one overtake others, and duplicate them; a `LinkConfig` says how likely that is.  Packets
queue up and leave the link at its head, each as soon as its time has come: a packet that is due
waits for those before it.

What chance decides about a packet are its `Draws`.  A link takes them from a function of the number
of the packet, so that a statement about all such functions is one about all outcomes.

All times are in milliseconds.  A link keeps them without bound, and reports them in 64 bits
(`Link.millis`).
-/

namespace GossipLedger

/-- How a link treats packets. -/
structure LinkConfig where
  /-- How long a packet takes at least. -/
  latency : Nat
  /-- How much longer it may take. -/
  jitter : Nat
  /-- The probability of losing a packet. -/
  loss : Probability
  /-- The probability of losing it together with packets that follow. -/
  burst : Probability
  /-- The least and the greatest number of those that follow. -/
  burstLength : Nat × Nat
  /-- The probability that a packet overtakes others. -/
  reorder : Probability
  /-- The greatest number of packets that it overtakes. -/
  depth : Nat
  /-- The probability of duplicating a packet. -/
  duplicate : Probability
  deriving DecidableEq

namespace LinkConfig

/-- A link that only delays. -/
def perfect : LinkConfig where
  latency := 1
  jitter := 0
  loss := .never
  burst := .never
  burstLength := (0, 0)
  reorder := .never
  depth := 0
  duplicate := .never

/-- A link as in a good network. -/
def good : LinkConfig where
  latency := 20
  jitter := 20
  loss := .percent 1
  burst := .percent 1
  burstLength := (1, 3)
  reorder := .percent 5
  depth := 3
  duplicate := .percent 1

/-- A link that loses packets now and then. -/
def lossy : LinkConfig where
  latency := 50
  jitter := 100
  loss := .percent 20
  burst := .percent 5
  burstLength := (2, 5)
  reorder := .percent 30
  depth := 5
  duplicate := .percent 10

/-- A link on which little arrives as it was sent. -/
def hostile : LinkConfig where
  latency := 100
  jitter := 400
  loss := .percent 40
  burst := .percent 10
  burstLength := (3, 8)
  reorder := .percent 50
  depth := 10
  duplicate := .percent 20

/-- A link on which nothing arrives. -/
def cut : LinkConfig :=
  { perfect with loss := .always }

/-- The configuration with a given name. -/
def named? : String → Option LinkConfig
  | "perfect" => some perfect
  | "good" => some good
  | "default" => some good
  | "lossy" => some lossy
  | "hostile" => some hostile
  | _ => none

instance : Inhabited LinkConfig :=
  ⟨perfect⟩

end LinkConfig

/-- The random numbers for one packet. -/
structure Draws where
  /-- Decides whether the packet begins a burst of losses. -/
  burst : Nat
  /-- Decides how many packets are lost with it. -/
  burstLength : Nat
  /-- Decides whether the packet is lost on its own. -/
  loss : Nat
  /-- Decides how long the packet takes. -/
  latency : Nat
  /-- Decides whether the packet is duplicated. -/
  duplicate : Nat
  /-- Decides whether the packet overtakes others. -/
  reorder : Nat
  /-- Decides how many. -/
  place : Nat
  /-- Decides how much longer a duplicate takes. -/
  copyLatency : Nat
  deriving DecidableEq, Inhabited

/-- The random numbers for each packet that belong to a seed. -/
def Draws.ofSeed (seed : UInt64) (packet : Nat) : Draws :=
  let number (k : Nat) := Chance.number seed (8 * packet + k)
  ⟨number 0, number 1, number 2, number 3, number 4, number 5, number 6, number 7⟩

/-- A packet on its way. -/
structure Packet (α : Type) where
  /-- What is carried. -/
  data : α
  /-- When the packet is due. -/
  due : Nat
  /-- When the packet was sent. -/
  sentAt : Nat
  deriving DecidableEq

/-- What a link has counted.  The counts have no width: none of them exceeds twice the number of
packets that were sent (`Link.Traffic.counter_le`), so counts of 64 bits are the same where that is
below 2⁶³. -/
structure LinkStats where
  /-- The packets that were sent. -/
  sent : Nat := 0
  /-- The packets that were delivered, duplicates included. -/
  delivered : Nat := 0
  /-- The packets that were lost. -/
  lost : Nat := 0
  /-- The packets that might overtake others. -/
  reordered : Nat := 0
  /-- The duplicates. -/
  duplicated : Nat := 0
  /-- The longest time that a delivered packet was on its way, of the times as they are reported. -/
  maxLatency : UInt64 := 0
  deriving DecidableEq, Inhabited

/-- The part of the packets sent that were lost. -/
def LinkStats.lossRate (stats : LinkStats) : Probability :=
  if stats.sent = 0 then .never else ⟨stats.lost, stats.sent⟩

/-- A link that carries values of type `α`. -/
structure Link (α : Type) where
  /-- How the link treats packets. -/
  config : LinkConfig
  /-- What chance decides about each packet, by its number. -/
  chance : Nat → Draws
  /-- The packets on their way, the first to be delivered first. -/
  queue : List (Packet α) := []
  /-- The time. -/
  now : Nat := 0
  /-- How many of the next packets are going to be lost. -/
  burstLeft : Nat := 0
  /-- The statistics. -/
  stats : LinkStats := {}

namespace Link

variable {α : Type}

/-- The number of packets on their way. -/
def inFlight (link : Link α) : Nat :=
  link.queue.length

/-- The time as it is reported. -/
def millis (link : Link α) : UInt64 :=
  .ofNat link.now

/-- The link under another configuration.  A burst of losses is over. -/
def configure (link : Link α) (config : LinkConfig) : Link α :=
  { link with config, burstLeft := 0 }

/-- The time that a packet takes. -/
def latency (config : LinkConfig) (random : Nat) : Nat :=
  config.latency + Chance.below random (config.jitter + 1)

/-- Whether the next packet is lost, and how many are going to be lost after it. -/
def losing (link : Link α) (draws : Draws) : Bool × Nat :=
  let (least, greatest) := link.config.burstLength
  if link.burstLeft ≠ 0 then (true, link.burstLeft - 1)
  else if link.config.burst.occurs draws.burst then
    (true, least + Chance.below draws.burstLength (greatest - least + 1))
  else (link.config.loss.occurs draws.loss, 0)

/-- Puts a packet into the queue: before the last few, if it overtakes them, or else last. -/
def enqueue (link : Link α) (draws : Draws) (packet : Packet α) : Link α :=
  if link.config.reorder.occurs draws.reorder ∧ link.queue ≠ [] then
    let most := min link.config.depth link.queue.length
    let place := link.queue.length - Chance.below draws.place (most + 1)
    { link with
      queue := link.queue.take place ++ packet :: link.queue.drop place
      stats := { link.stats with reordered := link.stats.reordered + 1 } }
  else { link with queue := link.queue ++ [packet] }

/-- Puts the duplicate of a packet last into the queue, if chance wants one.  It takes as long as
the packet, and longer. -/
def enqueueCopy (link : Link α) (draws : Draws) (packet : Packet α) : Link α :=
  if link.config.duplicate.occurs draws.duplicate then
    { link with
      queue := link.queue ++
        [{ packet with due := packet.due + latency link.config draws.copyLatency }]
      stats := { link.stats with duplicated := link.stats.duplicated + 1 } }
  else link

/-- Sends a packet. -/
def send (link : Link α) (data : α) : Link α :=
  -- a packet that is lost still uses up its draws, for they go by its number
  let draws := link.chance link.stats.sent
  let (lost, burstLeft) := link.losing draws
  let link := { link with burstLeft, stats := { link.stats with sent := link.stats.sent + 1 } }
  if lost then { link with stats := { link.stats with lost := link.stats.lost + 1 } }
  else
    let packet : Packet α :=
      { data, due := link.now + latency link.config draws.latency, sentAt := link.now }
    (link.enqueue draws packet).enqueueCopy draws packet

/-- The packets that can leave the link. -/
def arrivals (link : Link α) : List (Packet α) :=
  link.queue.takeWhile (·.due ≤ link.now)

/-- Takes the packets that can leave the link. -/
def deliver (link : Link α) : List (Packet α) × Link α :=
  let packets := link.arrivals
  (packets,
    { link with
      queue := link.queue.drop packets.length
      stats := { link.stats with
        delivered := link.stats.delivered + packets.length
        maxLatency := packets.foldl
          (fun most packet => max most (.ofNat (link.now - packet.sentAt)))
          link.stats.maxLatency } })

/-- Lets time pass, and delivers what can leave the link then. -/
def tick (link : Link α) (time : Nat) : List (Packet α) × Link α :=
  { link with now := link.now + time }.deliver

end Link

end GossipLedger
