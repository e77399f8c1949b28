import GossipLedger.Proofs.Simulation.Links
import Mathlib.Data.List.Induction
import Mathlib.Data.List.Perm.Basic
import Mathlib.Data.List.TakeWhile

/-!
# What a link has carried

Whatever chance decides, a packet that is sent over a link has one of three fates (`Link.Fate`): it
is lost, it is put into the queue, or it is put there together with a duplicate that is due later.
What has been put into the queue is still there or has been delivered, each packet once and not
before it was due.  `Link.Traffic` is a link together with all that was sent and delivered, and
`Link.Traffic.Books` says that every packet is accounted for.  Each call keeps the books
(`Link.Traffic.Accounted.call`), and the statistics balance because of them
(`Link.Traffic.Books.balance`).

A link on which chance has no say delivers in the order of sending (`Link.Traffic.InOrder`).

Nothing here depends on the unit of time.  A packet can take any time from the least to the greatest
(`Link.exists_latency_eq_iff`), so if a link counts in smaller units, and lets packets take only
some of these times, its outcomes are among those that are dealt with here.
-/

namespace GossipLedger

theorem Probability.not_occurs_of_num_eq_zero {p : Probability} (h : p.num = 0) (random : Nat) :
    p.occurs random = false := by
  simp [occurs, h]

namespace LinkConfig

/-- All that chance can do to a packet, but to delay it, has probability zero. -/
structure Certain (config : LinkConfig) : Prop where
  /-- Losing it. -/
  loss : config.loss.num = 0
  /-- Losing it together with others. -/
  burst : config.burst.num = 0
  /-- Letting it overtake others. -/
  reorder : config.reorder.num = 0
  /-- Duplicating it. -/
  duplicate : config.duplicate.num = 0

theorem Certain.faithful {config : LinkConfig} (h : config.Certain) : config.Faithful where
  burst := Probability.not_occurs_of_num_eq_zero h.burst
  loss := Probability.not_occurs_of_num_eq_zero h.loss
  reorder := Probability.not_occurs_of_num_eq_zero h.reorder
  duplicate := Probability.not_occurs_of_num_eq_zero h.duplicate

/-- A packet may be on its way from one time to another. -/
def Allows (config : LinkConfig) (start stop : Nat) : Prop :=
  start + config.latency ≤ stop ∧ stop ≤ start + config.latency + config.jitter

end LinkConfig

namespace Link

variable {α : Type}

/-- A packet can take each time that the configuration allows, and no other. -/
theorem exists_latency_eq_iff {config : LinkConfig} {start stop : Nat} :
    (∃ random, start + latency config random = stop) ↔ config.Allows start stop := by
  constructor
  · rintro ⟨random, rfl⟩
    have hbelow : Chance.below random (config.jitter + 1) < config.jitter + 1 :=
      Nat.mod_lt _ (Nat.succ_pos _)
    unfold LinkConfig.Allows latency
    omega
  · rintro ⟨hleast, hgreatest⟩
    refine ⟨stop - start - config.latency, ?_⟩
    rw [latency, Chance.below, Nat.mod_eq_of_lt (by omega)]
    omega

theorem allows_latency {config : LinkConfig} {start : Nat} (random : Nat) :
    config.Allows start (start + latency config random) :=
  exists_latency_eq_iff.1 ⟨random, rfl⟩

/-! ### Fates of packets -/

/-- A packet at the time when it is sent. -/
structure Sending (α : Type) where
  /-- What is carried. -/
  data : α
  /-- The time. -/
  time : Nat
  /-- How the link treats packets at that time. -/
  config : LinkConfig

/-- What becomes of a packet. -/
inductive Fate where
  /-- It is lost. -/
  | lost
  /-- It is put into the queue. -/
  | sent (due : Nat)
  /-- It is put into the queue, and so is a duplicate. -/
  | duplicated (due copyDue : Nat)

namespace Fate

/-- What is put into the queue. -/
def packets (x : Sending α) : Fate → List (Packet α)
  | lost => []
  | sent due => [⟨x.data, due, x.time⟩]
  | duplicated due copyDue => [⟨x.data, due, x.time⟩, ⟨x.data, copyDue, x.time⟩]

/-- The packets are due when the configuration allows. -/
def Possible (x : Sending α) : Fate → Prop
  | lost => True
  | sent due => x.config.Allows x.time due
  | duplicated due copyDue => x.config.Allows x.time due ∧ x.config.Allows due copyDue

/-- Whether the packet is lost. -/
def isLost : Fate → Bool
  | lost => true
  | _ => false

/-- Whether the packet is duplicated. -/
def isDuplicated : Fate → Bool
  | duplicated .. => true
  | _ => false

/-- A packet that is not lost is put into the queue once, and its duplicate once. -/
theorem length_packets (x : Sending α) (fate : Fate) :
    (fate.packets x).length + (if fate.isLost then 1 else 0) =
      1 + if fate.isDuplicated then 1 else 0 := by
  cases fate <;> rfl

end Fate

variable {link after : Link α} {data : α} {fate : Fate} {time : Nat}

/-- A link that is given a packet decides on its fate. -/
structure Sends (link : Link α) (data : α) (fate : Fate) (after : Link α) : Prop where
  /-- The packet is due when the configuration allows. -/
  possible : fate.Possible ⟨data, link.now, link.config⟩
  /-- The packets that the fate names come into the queue. -/
  queue : after.queue.Perm (link.queue ++ fate.packets ⟨data, link.now, link.config⟩)
  /-- No time passes. -/
  now : after.now = link.now
  /-- One more packet was sent. -/
  sent : after.stats.sent = link.stats.sent + 1
  /-- None is delivered. -/
  delivered : after.stats.delivered = link.stats.delivered
  /-- A lost packet is counted. -/
  lost : after.stats.lost = link.stats.lost + if fate.isLost then 1 else 0
  /-- A duplicate is counted. -/
  duplicated : after.stats.duplicated = link.stats.duplicated + if fate.isDuplicated then 1 else 0

/-- A link puts packets into its queue and counts duplicates; all else stays. -/
structure Gains (link : Link α) (packets : List (Packet α)) (duplicates : Nat) (after : Link α) :
    Prop where
  /-- The packets come into the queue. -/
  queue : after.queue.Perm (link.queue ++ packets)
  /-- The configuration stays. -/
  config : after.config = link.config
  /-- No time passes. -/
  now : after.now = link.now
  /-- No packet is sent. -/
  sent : after.stats.sent = link.stats.sent
  /-- No packet is delivered. -/
  delivered : after.stats.delivered = link.stats.delivered
  /-- No packet is lost. -/
  lost : after.stats.lost = link.stats.lost
  /-- The duplicates are counted. -/
  duplicated : after.stats.duplicated = link.stats.duplicated + duplicates

theorem Gains.trans {packets packets' : List (Packet α)} {duplicates duplicates' : Nat}
    {middle : Link α} (h : link.Gains packets duplicates middle)
    (h' : middle.Gains packets' duplicates' after) :
    link.Gains (packets ++ packets') (duplicates + duplicates') after where
  queue := by
    rw [← List.append_assoc]
    exact h'.queue.trans (h.queue.append_right _)
  config := h'.config.trans h.config
  now := h'.now.trans h.now
  sent := h'.sent.trans h.sent
  delivered := h'.delivered.trans h.delivered
  lost := h'.lost.trans h.lost
  duplicated := by rw [h'.duplicated, h.duplicated, Nat.add_assoc]

theorem gains_enqueue (link : Link α) (draws : Draws) (packet : Packet α) :
    link.Gains [packet] 0 (link.enqueue draws packet) := by
  unfold enqueue
  split
  · refine ⟨?_, rfl, rfl, rfl, rfl, rfl, rfl⟩
    refine List.perm_middle.trans ?_
    rw [List.take_append_drop]
    exact (List.perm_append_singleton _ _).symm
  · exact ⟨.refl _, rfl, rfl, rfl, rfl, rfl, rfl⟩

/-- A duplicate is due later than the packet by a time that it could take itself. -/
theorem gains_enqueueCopy (link : Link α) (draws : Draws) (packet : Packet α) :
    link.Gains [] 0 (link.enqueueCopy draws packet) ∨
      ∃ copyDue, link.config.Allows packet.due copyDue ∧
        link.Gains [{ packet with due := copyDue }] 1 (link.enqueueCopy draws packet) := by
  unfold enqueueCopy
  split
  · exact .inr ⟨_, allows_latency _, .refl _, rfl, rfl, rfl, rfl, rfl, rfl⟩
  · exact .inl ⟨by rw [List.append_nil], rfl, rfl, rfl, rfl, rfl, rfl⟩

/-- The link when it has counted a packet as sent, and has decided how many are going to be lost. -/
def counted (link : Link α) (burstLeft : Nat) : Link α :=
  { link with burstLeft, stats := { link.stats with sent := link.stats.sent + 1 } }

theorem exists_sends (link : Link α) (data : α) :
    ∃ fate, link.Sends data fate (link.send data) := by
  let draws := link.chance link.stats.sent
  let start := link.counted (link.losing draws).2
  let packet : Packet α := ⟨data, link.now + latency link.config draws.latency, link.now⟩
  have hsend : link.send data = if (link.losing draws).1
      then { start with stats := { start.stats with lost := start.stats.lost + 1 } }
      else (start.enqueue draws packet).enqueueCopy draws packet := rfl
  rw [hsend]
  split
  · exact ⟨.lost, trivial, .of_eq (List.append_nil _).symm, rfl, rfl, rfl, rfl, rfl⟩
  · have hpacket : link.config.Allows link.now packet.due := allows_latency _
    have hfirst := gains_enqueue start draws packet
    rcases gains_enqueueCopy (start.enqueue draws packet) draws packet with
      hcopy | ⟨copyDue, hcopyDue, hcopy⟩
    · have hall := hfirst.trans hcopy
      exact ⟨.sent packet.due, hpacket, hall.queue, hall.now, hall.sent, hall.delivered, hall.lost,
        hall.duplicated⟩
    · have hall := hfirst.trans hcopy
      rw [hfirst.config] at hcopyDue
      exact ⟨.duplicated packet.due copyDue, ⟨hpacket, hcopyDue⟩, hall.queue, hall.now, hall.sent,
        hall.delivered, hall.lost, hall.duplicated⟩

/-! ### Time -/

theorem due_le_of_mem_tick {packet : Packet α} (h : packet ∈ (link.tick time).1) :
    packet.due ≤ (link.tick time).2.now := by
  have hdue : decide (packet.due ≤ link.now + time) = true :=
    List.mem_takeWhile_imp (p := fun x : Packet α => x.due ≤ link.now + time) h
  exact of_decide_eq_true hdue

/-- If all packets are due, none stays behind. -/
theorem tick_of_due (h : ∀ packet ∈ link.queue, packet.due ≤ link.now + time) :
    (link.tick time).1 = link.queue ∧ (link.tick time).2.queue = [] := by
  have hall : (link.tick time).1 = link.queue :=
    List.takeWhile_eq_self_iff.2 fun packet hpacket => decide_eq_true (h packet hpacket)
  have hqueue := link.queue_tick time
  rw [hall] at hqueue
  exact ⟨hall, List.append_right_eq_self.1 hqueue⟩

/-! ### Calls -/

/-- A packet that has left a link. -/
structure Delivery (α : Type) where
  /-- The packet. -/
  packet : Packet α
  /-- When it left. -/
  time : Nat

/-- What can be done with a link. -/
inductive Call (α : Type) where
  /-- Sends a packet. -/
  | send (data : α)
  /-- Lets time pass. -/
  | tick (time : Nat)
  /-- Changes how packets are treated. -/
  | configure (config : LinkConfig)

/-- A link together with all that was sent over it. -/
structure Traffic (α : Type) where
  /-- The link. -/
  link : Link α
  /-- The packets that were sent, in their order. -/
  sent : List (Sending α) := []
  /-- The packets that were delivered, in their order. -/
  delivered : List (Delivery α) := []

namespace Traffic

/-- A link over which nothing has been sent. -/
def opened (config : LinkConfig) (chance : Nat → Draws) : Traffic α where
  link := { config, chance }

/-- What a call does. -/
def call (t : Traffic α) : Call α → Traffic α
  | .send data =>
    { t with
      link := t.link.send data
      sent := t.sent ++ [⟨data, t.link.now, t.link.config⟩] }
  | .tick time =>
    let (packets, link) := t.link.tick time
    { t with link, delivered := t.delivered ++ packets.map fun packet => ⟨packet, link.now⟩ }
  | .configure config => { t with link := t.link.configure config }

/-- What a list of calls does. -/
def run (t : Traffic α) (calls : List (Call α)) : Traffic α :=
  calls.foldl call t

/-- The fates of all packets that were sent, and what the link has of them. -/
structure Books (t : Traffic α) (fates : List (Sending α × Fate)) : Prop where
  /-- Each packet that was sent has one fate. -/
  sent : fates.map Prod.fst = t.sent
  /-- The packets are due when the configuration allowed. -/
  possible : ∀ x ∈ fates, x.2.Possible x.1
  /-- What was put into the queue has been delivered or is there. -/
  packets : (t.delivered.map (·.packet) ++ t.link.queue).Perm
    (fates.flatMap fun x => x.2.packets x.1)
  /-- What was delivered was due. -/
  timely : ∀ x ∈ t.delivered, x.packet.due ≤ x.time
  /-- The packets that were sent are counted. -/
  sent_eq : t.link.stats.sent = fates.length
  /-- The packets that were delivered are counted. -/
  delivered_eq : t.link.stats.delivered = t.delivered.length
  /-- The packets that were lost are counted. -/
  lost_eq : t.link.stats.lost = fates.countP (·.2.isLost)
  /-- The duplicates are counted. -/
  duplicated_eq : t.link.stats.duplicated = fates.countP (·.2.isDuplicated)

/-- Every packet is accounted for. -/
def Accounted (t : Traffic α) : Prop :=
  ∃ fates, t.Books fates

variable {t : Traffic α} {fates : List (Sending α × Fate)} {calls : List (Call α)}
  {config : LinkConfig}

theorem accounted_opened (config : LinkConfig) (chance : Nat → Draws) :
    (opened config chance : Traffic α).Accounted :=
  ⟨[], rfl, nofun, .refl _, nofun, rfl, rfl, rfl, rfl⟩

/-- Every call keeps the books. -/
theorem Accounted.call (h : t.Accounted) (c : Call α) : (t.call c).Accounted := by
  obtain ⟨fates, h⟩ := h
  cases c with
  | send data =>
    obtain ⟨fate, hsends⟩ := t.link.exists_sends data
    let sending : Sending α := ⟨data, t.link.now, t.link.config⟩
    refine ⟨fates ++ [(sending, fate)], ?_, ?_, ?_, h.timely, ?_, ?_, ?_, ?_⟩
    · rw [List.map_append, h.sent]
      rfl
    · rw [List.forall_mem_append, List.forall_mem_singleton]
      exact ⟨h.possible, hsends.possible⟩
    · rw [List.flatMap_append, List.flatMap_singleton]
      refine (hsends.queue.append_left _).trans ?_
      rw [← List.append_assoc]
      exact h.packets.append_right _
    · rw [List.length_append]
      exact hsends.sent.trans (congrArg (· + 1) h.sent_eq)
    · exact hsends.delivered.trans h.delivered_eq
    · rw [List.countP_append, List.countP_singleton, ← h.lost_eq]
      exact hsends.lost
    · rw [List.countP_append, List.countP_singleton, ← h.duplicated_eq]
      exact hsends.duplicated
  | tick time =>
    refine ⟨fates, h.sent, h.possible, ?_, ?_, h.sent_eq, ?_, h.lost_eq, h.duplicated_eq⟩
    · have hdelivered : (t.call (.tick time)).delivered.map (·.packet) =
          t.delivered.map (·.packet) ++ (t.link.tick time).1 := by
        simp [Traffic.call, Function.comp_def]
      rw [hdelivered, List.append_assoc]
      exact (t.link.queue_tick time).symm ▸ h.packets
    · intro x hx
      rcases List.mem_append.1 hx with hx | hx
      · exact h.timely x hx
      · obtain ⟨packet, hpacket, rfl⟩ := List.mem_map.1 hx
        exact due_le_of_mem_tick hpacket
    · have hlength : (t.call (.tick time)).delivered.length =
          t.delivered.length + (t.link.tick time).1.length := by
        simp [Traffic.call]
      rw [hlength, ← h.delivered_eq]
      rfl
  | configure config =>
    exact ⟨fates, h.sent, h.possible, h.packets, h.timely, h.sent_eq, h.delivered_eq, h.lost_eq,
      h.duplicated_eq⟩

theorem run_concat {c : Call α} : t.run (calls ++ [c]) = (t.run calls).call c := by
  rw [run, List.foldl_append]
  rfl

theorem Accounted.run (h : t.Accounted) (calls : List (Call α)) : (t.run calls).Accounted := by
  induction calls using List.reverseRecOn with
  | nil => exact h
  | append_singleton calls c ih =>
    rw [run_concat]
    exact ih.call c

theorem length_flatMap_packets : (fates.flatMap fun x => x.2.packets x.1).length +
    fates.countP (·.2.isLost) = fates.length + fates.countP (·.2.isDuplicated) := by
  induction fates with
  | nil => rfl
  | cons x fates ih =>
    have hx := x.2.length_packets x.1
    rw [List.flatMap_cons, List.length_append, List.countP_cons, List.countP_cons, List.length_cons]
    omega

/-- The statistics balance. -/
theorem Books.balance (h : t.Books fates) :
    t.link.stats.sent + t.link.stats.duplicated =
      t.link.stats.delivered + t.link.stats.lost + t.link.inFlight := by
  have hlength := h.packets.length_eq
  rw [List.length_append, List.length_map, ← h.delivered_eq] at hlength
  rw [h.sent_eq, h.duplicated_eq, ← length_flatMap_packets, ← hlength, h.lost_eq, inFlight]
  omega

/-! ### Order -/

/-- Chance has had no say, and what was sent arrives in its order. -/
structure InOrder (t : Traffic α) : Prop where
  /-- The link leaves nothing to chance but how long a packet takes. -/
  faithful : t.link.Faithful
  /-- What was delivered and what is on its way make up what was sent. -/
  data : t.delivered.map (·.packet.data) ++ t.link.queue.map (·.data) = t.sent.map (·.data)

theorem inOrder_opened (h : config.Certain) (chance : Nat → Draws) :
    (opened config chance : Traffic α).InOrder :=
  ⟨⟨h.faithful, rfl⟩, rfl⟩

theorem InOrder.call (h : t.InOrder) {c : Call α}
    (hc : ∀ config, c = .configure config → config.Certain) : (t.call c).InOrder := by
  cases c with
  | send data =>
    refine ⟨h.faithful.send, ?_⟩
    obtain ⟨due, hqueue⟩ :
        ∃ due, (t.link.send data).queue = t.link.queue ++ [⟨data, due, t.link.now⟩] :=
      h.faithful.send_eq.imp fun _ => congrArg Link.queue
    have hdata := congrArg (· ++ [data]) h.data
    simpa [Traffic.call, hqueue] using hdata
  | tick time =>
    refine ⟨⟨h.faithful.config, h.faithful.burstLeft⟩, ?_⟩
    have hdata := h.data
    rw [← t.link.queue_tick time] at hdata
    simpa [Traffic.call, Function.comp_def] using hdata
  | configure config => exact ⟨faithful_configure (hc config rfl).faithful, h.data⟩

theorem InOrder.run (h : t.InOrder)
    (hcalls : ∀ config, .configure config ∈ calls → config.Certain) : (t.run calls).InOrder := by
  induction calls using List.reverseRecOn with
  | nil => exact h
  | append_singleton calls c ih =>
    rw [run_concat]
    have hbefore := ih fun config hmem => hcalls config (List.mem_append_left _ hmem)
    exact hbefore.call fun config hc => hcalls config (hc ▸ List.mem_concat_self)

end Traffic

/-- **A link accounts for every packet.**  After any calls and with any outcomes of chance, the
statistics balance, and no packet was delivered before it was due.  If chance never has a say, what
was delivered and what is on its way make up what was sent, in its order.  And once all packets on
their way are due, the next tick delivers them. -/
theorem run_accounted {α : Type} (config : LinkConfig) (chance : Nat → Draws)
    (calls : List (Call α)) :
    let t := (Traffic.opened config chance).run calls
    t.Accounted ∧
    t.link.stats.sent + t.link.stats.duplicated =
      t.link.stats.delivered + t.link.stats.lost + t.link.inFlight ∧
    (∀ x ∈ t.delivered, x.packet.due ≤ x.time) ∧
    (config.Certain → (∀ config', .configure config' ∈ calls → config'.Certain) →
      t.delivered.map (·.packet.data) ++ t.link.queue.map (·.data) = t.sent.map (·.data)) ∧
    ∀ time, (∀ packet ∈ t.link.queue, packet.due ≤ t.link.now + time) →
      (t.link.tick time).1 = t.link.queue ∧ (t.link.tick time).2.inFlight = 0 := by
  intro t
  obtain ⟨fates, hbooks⟩ := (Traffic.accounted_opened config chance).run calls
  refine ⟨⟨fates, hbooks⟩, hbooks.balance, hbooks.timely, fun hconfig hcalls => ?_, ?_⟩
  · exact ((Traffic.inOrder_opened hconfig chance).run hcalls).data
  · intro time hdue
    obtain ⟨hall, hnone⟩ := tick_of_due hdue
    exact ⟨hall, congrArg List.length hnone⟩

/-- The second packet takes long, and the third one has to wait for it. -/
def slowSecond : List (Call String) :=
  [.send "first", .configure { LinkConfig.perfect with latency := 5, jitter := 3 }, .send "second",
    .configure .perfect, .send "third", .tick 1]

/-- What chance decides where a packet takes one unit of time more than it has to. -/
def delaying (_ : Nat) : Draws :=
  { (default : Draws) with latency := 1 }

theorem slowSecond_accounted :
    let t := (Traffic.opened .perfect delaying).run slowSecond
    LinkConfig.perfect.Certain ∧
    (∀ config, .configure config ∈ slowSecond → config.Certain) ∧
    (∀ packet ∈ t.link.queue, packet.due ≤ t.link.now + 5) ∧
    t.sent.map (·.data) = ["first", "second", "third"] ∧
    t.delivered.map (·.packet.data) = ["first"] ∧
    t.delivered.map (·.packet.data) ++ t.link.queue.map (·.data) = t.sent.map (·.data) ∧
    (t.link.tick 5).1 = t.link.queue ∧ (t.link.tick 5).2.inFlight = 0 := by
  intro t
  have hperfect : LinkConfig.perfect.Certain := ⟨rfl, rfl, rfl, rfl⟩
  have hcalls : ∀ config, .configure config ∈ slowSecond → config.Certain := by
    intro config h
    simp only [slowSecond, List.mem_cons, Call.configure.injEq, reduceCtorEq, false_or,
      List.not_mem_nil, or_false] at h
    rcases h with rfl | rfl <;> exact ⟨rfl, rfl, rfl, rfl⟩
  have hdue : ∀ packet ∈ t.link.queue, packet.due ≤ t.link.now + 5 := by decide
  obtain ⟨-, -, -, horder, hempty⟩ := run_accounted .perfect delaying slowSecond
  exact ⟨hperfect, hcalls, hdue, rfl, rfl, horder hperfect hcalls, hempty 5 hdue⟩

-- the second packet overtakes the first one and is duplicated, and the third one is lost
example :
    let half := 1 <<< 52
    let chance : Nat → Draws
      | 0 => ⟨half, half, half, half, half, half, half, half⟩
      | 1 => ⟨half, half, half, half, 0, 0, 1, half⟩
      | _ => ⟨half, half, 0, half, half, half, half, half⟩
    let t := (Traffic.opened .hostile chance).run [.send 1, .send 2, .send 3, .tick 1000]
    t.delivered.map (·.packet.data) = [2, 1, 2] ∧
    (t.link.stats.sent, t.link.stats.duplicated, t.link.stats.delivered, t.link.stats.lost) =
      (3, 1, 3, 1) := by
  decide +kernel

end Link

end GossipLedger
