import GossipLedger.Simulation.Cluster

/-!
# What becomes of packets

A link may lose a packet that is sent, but it does not touch those that are on their way:
`Link.queue_send` lists what the queue can be afterwards.  Time takes packets out of the queue at
its head only, and delivers each packet that it takes (`Link.queue_tick`).

A link is *faithful* (`Link.Faithful`) if chance has no say on it.  Such a link puts each packet
last into its queue and stays faithful (`Link.Faithful.send_eq`).

`Cluster.underway` is all that is on its way in a cluster.  Nothing is taken out of it but what
arrives in a tick (`Cluster.mem_underway_iff`).
-/

namespace GossipLedger

namespace LinkConfig

variable {config : LinkConfig}

/-- A configuration that leaves nothing to chance but how long a packet takes. -/
structure Faithful (config : LinkConfig) : Prop where
  /-- No packet begins a burst of losses. -/
  burst : ∀ random, config.burst.occurs random = false
  /-- No packet is lost on its own. -/
  loss : ∀ random, config.loss.occurs random = false
  /-- No packet overtakes others. -/
  reorder : ∀ random, config.reorder.occurs random = false
  /-- No packet is duplicated. -/
  duplicate : ∀ random, config.duplicate.occurs random = false

theorem faithful_perfect : perfect.Faithful := by
  have hnever : ∀ random, Probability.never.occurs random = false := fun _ =>
    Bool.eq_false_iff.2 Probability.not_occurs_never
  exact ⟨hnever, hnever, hnever, hnever⟩

end LinkConfig

namespace Link

variable {α : Type} {link : Link α} {data : α} {packet : Packet α} {queue : List (Packet α)}

/-! ### Sending -/

/-- What the queue can be after a packet has been sent. -/
inductive SendCase (link : Link α) (data : α) : List (Packet α) → Prop where
  /-- The packet is lost. -/
  | lost : SendCase link data link.queue
  /-- The packet has a place in the queue. -/
  | sent {before after : List (Packet α)} {due : Nat} (h : link.queue = before ++ after) :
    SendCase link data (before ++ ⟨data, due, link.now⟩ :: after)
  /-- The packet has a place in the queue, and a duplicate of it is the last one. -/
  | duplicated {before after : List (Packet α)} {due due' : Nat}
    (h : link.queue = before ++ after) :
    SendCase link data ((before ++ ⟨data, due, link.now⟩ :: after) ++ [⟨data, due', link.now⟩])

theorem exists_queue_enqueue (link : Link α) (draws : Draws) (packet : Packet α) :
    ∃ before after, link.queue = before ++ after ∧
      (link.enqueue draws packet).queue = before ++ packet :: after := by
  unfold enqueue
  split
  · exact ⟨_, _, (List.take_append_drop _ _).symm, rfl⟩
  · exact ⟨link.queue, [], (List.append_nil _).symm, rfl⟩

theorem queue_send (link : Link α) (data : α) : SendCase link data (link.send data).queue := by
  unfold send
  dsimp only
  split
  · exact .lost
  · unfold enqueueCopy
    split
    · obtain ⟨before, after, hqueue, henqueue⟩ := exists_queue_enqueue _ _ _
      dsimp only
      rw [henqueue]
      exact .duplicated hqueue
    · obtain ⟨before, after, hqueue, henqueue⟩ := exists_queue_enqueue _ _ _
      rw [henqueue]
      exact .sent hqueue

/-- What is on its way stays there, in its order. -/
theorem SendCase.sublist (h : SendCase link data queue) : link.queue.Sublist queue := by
  cases h with
  | lost => exact .refl _
  | sent hqueue =>
    rw [hqueue]
    exact .append_left (List.sublist_cons_self _ _) _
  | duplicated hqueue =>
    rw [hqueue]
    exact .trans (.append_left (List.sublist_cons_self _ _) _) (List.sublist_append_left _ _)

/-- Only what has been sent comes in addition. -/
theorem SendCase.of_mem (h : SendCase link data queue) (hpacket : packet ∈ queue) :
    packet ∈ link.queue ∨ packet.data = data := by
  have hplace : ∀ {before after : List (Packet α)} {due : Nat}, link.queue = before ++ after →
      packet ∈ before ++ ⟨data, due, link.now⟩ :: after →
        packet ∈ link.queue ∨ packet.data = data := by
    intro before after due hqueue hmem
    rw [hqueue, List.mem_append]
    rcases List.mem_append.1 hmem with hmem | hmem
    · exact .inl (.inl hmem)
    · rcases List.mem_cons.1 hmem with rfl | hmem
      · exact .inr rfl
      · exact .inl (.inr hmem)
  cases h with
  | lost => exact .inl hpacket
  | sent hqueue => exact hplace hqueue hpacket
  | duplicated hqueue =>
    rcases List.mem_append.1 hpacket with hpacket | hpacket
    · exact hplace hqueue hpacket
    · rw [List.mem_singleton.1 hpacket]
      exact .inr rfl

/-! ### Faithful links -/

/-- A link on which chance has no say but on how long a packet takes. -/
structure Faithful (link : Link α) : Prop where
  /-- The configuration. -/
  config : link.config.Faithful
  /-- No burst of losses is going on. -/
  burstLeft : link.burstLeft = 0

theorem faithful_configure {config : LinkConfig} (h : config.Faithful) :
    (link.configure config).Faithful :=
  ⟨h, rfl⟩

namespace Faithful

variable (h : link.Faithful)

include h

theorem losing {draws : Draws} : link.losing draws = (false, 0) := by
  simp [Link.losing, h.burstLeft, h.config.burst, h.config.loss]

theorem send_eq : ∃ due, link.send data =
    { link with
      queue := link.queue ++ [⟨data, due, link.now⟩]
      burstLeft := 0
      stats := { link.stats with sent := link.stats.sent + 1 } } := by
  refine ⟨link.now + latency link.config (link.chance link.stats.sent).latency, ?_⟩
  rw [send, h.losing]
  simp only [Bool.false_eq_true, if_false, enqueue, enqueueCopy, h.config.reorder,
    h.config.duplicate, false_and]

theorem exists_mem_queue_send (data : α) :
    ∃ packet ∈ (link.send data).queue, packet.data = data := by
  obtain ⟨due, hsend⟩ := h.send_eq
  rw [hsend]
  exact ⟨_, List.mem_concat_self, rfl⟩

theorem send : (link.send data).Faithful := by
  obtain ⟨due, hsend⟩ := h.send_eq
  rw [hsend]
  exact ⟨h.config, rfl⟩

end Faithful

/-! ### Time -/

/-- Time delivers packets at the head of the queue, and the others remain. -/
theorem queue_tick (link : Link α) (time : Nat) :
    (link.tick time).1 ++ (link.tick time).2.queue = link.queue :=
  List.prefix_iff_eq_append.1 (List.takeWhile_prefix _)

end Link

/-- The numbers of the replicas that a channel connects. -/
def Channel.ends (ch : Channel) : Nat × Nat :=
  (ch.source, ch.target)

namespace Cluster

variable {c : Cluster} {x : Nat × Wire.Bytes} {p : Nat → Nat → Bool}
  {f : Link Wire.Bytes → Link Wire.Bytes}

/-! ### What is on its way -/

/-- What is on its way, with the numbers of the receivers. -/
def underway (c : Cluster) : List (Nat × Wire.Bytes) :=
  c.channels.flatMap fun ch => ch.link.queue.map fun packet => (ch.target, packet.data)

theorem mem_underway : x ∈ c.underway ↔
    ∃ ch ∈ c.channels, ∃ packet ∈ ch.link.queue, (ch.target, packet.data) = x := by
  simp only [underway, List.mem_flatMap, List.mem_map]

theorem length_underway : c.underway.length = c.inFlight := by
  simp only [underway, inFlight, List.length_flatMap, List.length_map]

theorem ends_updateLinks :
    (c.updateLinks p f).channels.map Channel.ends = c.channels.map Channel.ends := by
  rw [updateLinks, List.map_map]
  refine List.map_congr_left fun ch _ => ?_
  dsimp only [Function.comp]
  split <;> rfl

theorem ends_broadcast {i : Nat} {bytes : Wire.Bytes} :
    (c.broadcast i bytes).channels.map Channel.ends = c.channels.map Channel.ends :=
  ends_updateLinks (p := fun s _ => s = i) (f := (·.send bytes))

/-- A change of links that takes no packet out of their queues. -/
theorem mem_underway_updateLinks (hf : ∀ link, ∀ packet ∈ link.queue, packet ∈ (f link).queue)
    (hx : x ∈ c.underway) : x ∈ (c.updateLinks p f).underway := by
  obtain ⟨ch, hch, packet, hpacket, rfl⟩ := mem_underway.1 hx
  refine mem_underway.2 ⟨_, List.mem_map_of_mem hch, packet, ?_, ?_⟩
  · split
    · exact hf ch.link packet hpacket
    · exact hpacket
  · split <;> rfl

/-- A change of links that puts only certain packets into their queues. -/
theorem of_mem_underway_updateLinks {P : Wire.Bytes → Prop}
    (hf : ∀ link, ∀ packet ∈ (f link).queue, packet ∈ link.queue ∨ P packet.data)
    (hx : x ∈ (c.updateLinks p f).underway) : x ∈ c.underway ∨ P x.2 := by
  obtain ⟨_, hmem, packet, hpacket, rfl⟩ := mem_underway.1 hx
  obtain ⟨ch, hch, rfl⟩ := List.mem_map.1 hmem
  split at hpacket
  · rename_i hp
    rw [if_pos hp]
    refine (hf ch.link packet hpacket).imp_left fun hpacket => ?_
    exact mem_underway.2 ⟨ch, hch, packet, hpacket, rfl⟩
  · rename_i hp
    rw [if_neg hp]
    exact .inl (mem_underway.2 ⟨ch, hch, packet, hpacket, rfl⟩)

theorem mem_underway_configure {config : LinkConfig} :
    x ∈ (c.updateLinks p (·.configure config)).underway ↔ x ∈ c.underway := by
  refine ⟨fun hx => ?_, mem_underway_updateLinks (f := (·.configure config)) fun _ _ => id⟩
  exact (of_mem_underway_updateLinks (f := (·.configure config)) (P := fun _ => False)
    (fun _ _ => .inl) hx).resolve_right id

theorem mem_underway_broadcast {i : Nat} {bytes : Wire.Bytes} (hx : x ∈ c.underway) :
    x ∈ (c.broadcast i bytes).underway :=
  mem_underway_updateLinks (f := (·.send bytes)) (p := fun s _ => s = i)
    (fun link _ hpacket => (link.queue_send bytes).sublist.subset hpacket) hx

theorem of_mem_underway_broadcast {i : Nat} {bytes : Wire.Bytes}
    (hx : x ∈ (c.broadcast i bytes).underway) : x ∈ c.underway ∨ x.2 = bytes :=
  of_mem_underway_updateLinks (f := (·.send bytes)) (p := fun s _ => s = i) (P := (· = bytes))
    (fun link _ hpacket => (link.queue_send bytes).of_mem hpacket) hx

/-- What arrives in the next tick. -/
def arrivals (c : Cluster) : List (Nat × Wire.Bytes) :=
  c.channels.flatMap fun ch => (ch.tick c.config.tickTime).1

/-- The cluster after the time of a tick, before what arrives is taken in. -/
def elapsed (c : Cluster) : Cluster :=
  { c with channels := c.channels.map fun ch => (ch.tick c.config.tickTime).2 }

theorem tick_snd : c.tick.2 = c.arrivals.foldl receive c.elapsed := by
  simp only [tick, arrivals, elapsed, List.flatMap_map, List.map_map]
  rfl

/-- What is on its way arrives in the next tick or stays on its way. -/
theorem mem_underway_iff : x ∈ c.underway ↔ x ∈ c.arrivals ∨ x ∈ c.elapsed.underway := by
  have hch : ∀ ch : Channel, x ∈ ch.link.queue.map (fun packet => (ch.target, packet.data)) ↔
      x ∈ (ch.tick c.config.tickTime).1 ∨
        x ∈ (ch.link.tick c.config.tickTime).2.queue.map fun packet => (ch.target, packet.data) := by
    intro ch
    rw [← Link.queue_tick ch.link c.config.tickTime, List.map_append, List.mem_append]
    rfl
  simp only [underway, arrivals, elapsed, List.flatMap_map, List.mem_flatMap]
  rw [← exists_or]
  refine exists_congr fun ch => ?_
  rw [hch, and_or_left]
  rfl

end Cluster

end GossipLedger
