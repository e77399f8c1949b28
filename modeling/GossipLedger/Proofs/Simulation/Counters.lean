import GossipLedger.Proofs.Simulation.Mirror
import GossipLedger.Proofs.Simulation.Traffic

/-!
# How far links and clusters count

What a link counts are the packets that are sent over it, each at most twice: once as itself and
once as its duplicate (`Link.Traffic.counter_le`).

A cluster counts a push once for each link (`Cluster.Counts.sent`).  What arrives of it is counted
as taken in or as refused, and a packet that is sent arrives at most twice
(`Cluster.Counts.arrived`).  Each call keeps this (`Cluster.Counts.call`), so the number of pushes
and that of the links bound all counters of a cluster (`Cluster.counter_le`).
-/

namespace GossipLedger

/-- All counters of a link. -/
def LinkStats.counters (stats : LinkStats) : List Nat :=
  [stats.sent, stats.delivered, stats.lost, stats.reordered, stats.duplicated]

/-- All counters of a cluster. -/
def ClusterStats.counters (stats : ClusterStats) : List Nat :=
  [stats.sent, stats.merged, stats.rejected]

/-! ### Links -/

namespace Link

variable {α : Type} {link : Link α} {data : α} {n : Nat}

theorem reordered_enqueue_le (link : Link α) (draws : Draws) (packet : Packet α) :
    (link.enqueue draws packet).stats.reordered ≤ link.stats.reordered + 1 := by
  unfold enqueue
  split
  · exact Nat.le_refl _
  · exact Nat.le_succ _

theorem reordered_enqueueCopy (link : Link α) (draws : Draws) (packet : Packet α) :
    (link.enqueueCopy draws packet).stats.reordered = link.stats.reordered := by
  unfold enqueueCopy
  split <;> rfl

/-- A packet overtakes others at most once, when it is sent. -/
theorem reordered_send_le (link : Link α) (data : α) :
    (link.send data).stats.reordered ≤ link.stats.reordered + 1 := by
  unfold send
  dsimp only
  split
  · exact Nat.le_succ _
  · rw [reordered_enqueueCopy]
    exact reordered_enqueue_le _ _ _

/-- A packet that is sent comes into the queue at most twice. -/
theorem inFlight_send_le (link : Link α) (data : α) :
    (link.send data).inFlight ≤ link.inFlight + 2 := by
  have hsend := link.queue_send data
  rw [inFlight, inFlight]
  generalize (link.send data).queue = queue at hsend ⊢
  cases hsend with
  | lost => omega
  | sent hqueue =>
    rw [hqueue, List.length_append, List.length_append, List.length_cons]
    omega
  | duplicated hqueue =>
    rw [hqueue, List.length_append, List.length_append, List.length_append, List.length_cons,
      List.length_singleton]
    omega

namespace Traffic

variable {t : Traffic α} {calls : List (Call α)} {config : LinkConfig} {chance : Nat → Draws}

theorem reordered_call_le (h : t.link.stats.reordered ≤ t.sent.length) (c : Call α) :
    (t.call c).link.stats.reordered ≤ (t.call c).sent.length := by
  cases c with
  | send data =>
    have hsend := t.link.reordered_send_le data
    have hlength : (t.call (.send data)).sent.length = t.sent.length + 1 := List.length_append
    rw [hlength]
    exact Nat.le_trans hsend (Nat.succ_le_succ h)
  | tick time => exact h
  | configure config => exact h

/-- No more packets overtake others than are sent. -/
theorem reordered_run_le (h : t.link.stats.reordered ≤ t.sent.length) (calls : List (Call α)) :
    (t.run calls).link.stats.reordered ≤ (t.run calls).sent.length := by
  induction calls using List.reverseRecOn with
  | nil => exact h
  | append_singleton calls c ih =>
    rw [run_concat]
    exact reordered_call_le ih c

/-- **No counter of a link exceeds twice the number of packets that were sent.** -/
theorem counter_le (config : LinkConfig) (chance : Nat → Draws) (calls : List (Call α))
    (hn : n ∈ ((opened config chance).run calls).link.stats.counters) :
    n ≤ 2 * ((opened config chance).run calls).sent.length := by
  obtain ⟨fates, hbooks⟩ := (accounted_opened config chance).run calls
  have hreordered := reordered_run_le (t := opened config chance) (Nat.le_refl _) calls
  generalize (opened config chance).run calls = t at hn hbooks hreordered ⊢
  have hbalance := hbooks.balance
  have hsent := hbooks.sent_eq
  have hlength : t.sent.length = fates.length := by rw [← hbooks.sent, List.length_map]
  have hlost : t.link.stats.lost ≤ fates.length := hbooks.lost_eq ▸ List.countP_le_length
  have hduplicated : t.link.stats.duplicated ≤ fates.length :=
    hbooks.duplicated_eq ▸ List.countP_le_length
  simp only [LinkStats.counters, List.mem_cons, List.not_mem_nil, or_false] at hn
  omega

end Traffic

end Link

/-! ### Clusters -/

namespace Cluster

variable {c c' : Cluster} {links replicas pushes n : Nat} {i : Nat} {bytes : Wire.Bytes}

/-- How a cluster has counted, given the number of its links, that of its replicas and that of the
pushes to all other replicas. -/
structure Counts (c : Cluster) (links replicas pushes : Nat) : Prop where
  /-- The number of links. -/
  width : c.channels.length = links
  /-- The number of replicas. -/
  size : c.size = replicas
  /-- A push is counted at most once for each link. -/
  sent : c.stats.sent ≤ links * pushes
  /-- What was sent arrives at most twice. -/
  arrived : c.stats.merged + c.stats.rejected + c.inFlight ≤ 2 * c.stats.sent

/-- Only the numbers of links and replicas, the statistics and the packets on their way matter. -/
theorem Counts.congr (h : c.Counts links replicas pushes)
    (hwidth : c'.channels.length = c.channels.length) (hsize : c'.size = c.size)
    (hstats : c'.stats = c.stats) (hflight : c'.inFlight = c.inFlight) :
    c'.Counts links replicas pushes where
  width := hwidth.trans h.width
  size := hsize.trans h.size
  sent := by
    rw [hstats]
    exact h.sent
  arrived := by
    rw [hstats, hflight]
    exact h.arrived

theorem Counts.mono {more : Nat} (h : c.Counts links replicas pushes) (hle : pushes ≤ more) :
    c.Counts links replicas more :=
  ⟨h.width, h.size, Nat.le_trans h.sent (Nat.mul_le_mul_left _ hle), h.arrived⟩

theorem inFlight_broadcast_le (c : Cluster) (i : Nat) (bytes : Wire.Bytes) :
    (c.broadcast i bytes).inFlight ≤
      c.inFlight + 2 * c.channels.countP fun ch => ch.source = i := by
  unfold inFlight broadcast updateLinks
  dsimp only
  induction c.channels with
  | nil => exact Nat.le_refl _
  | cons ch rest ih =>
    have hsend : (ch.link.send bytes).queue.length ≤ ch.link.queue.length + 2 :=
      ch.link.inFlight_send_le bytes
    rw [List.map_cons, List.flatMap_cons, List.flatMap_cons, List.length_append,
      List.length_append, List.countP_cons]
    by_cases hi : ch.source = i
    · simp only [hi, decide_true, if_true]
      omega
    · simp only [hi, decide_false, Bool.false_eq_true, if_false]
      omega

theorem Counts.broadcast (h : c.Counts links replicas pushes) :
    (c.broadcast i bytes).Counts links replicas (pushes + 1) := by
  have hcount : (c.channels.countP fun ch => ch.source = i) ≤ links :=
    h.width ▸ List.countP_le_length
  have hsent : (c.broadcast i bytes).stats.sent =
      c.stats.sent + c.channels.countP fun ch => ch.source = i := rfl
  constructor
  case width =>
    rw [← h.width]
    exact List.length_map _
  case size => exact h.size
  case sent =>
    rw [hsent, Nat.mul_succ]
    exact Nat.add_le_add h.sent hcount
  case arrived =>
    have hflight := c.inFlight_broadcast_le i bytes
    have harrived := h.arrived
    rw [hsent]
    change c.stats.merged + c.stats.rejected + _ ≤ _
    omega

theorem Counts.gossip (h : c.Counts links replicas pushes) (i : Nat) :
    (c.gossip i).2.Counts links replicas (pushes + 1) := by
  rw [Cluster.gossip]
  split
  · exact h.mono (Nat.le_succ _)
  · split
    · exact h.broadcast
    · exact h.mono (Nat.le_succ _)

theorem Counts.gossipAll (h : c.Counts links replicas pushes) (is : List Nat) :
    (c.gossipAll is).2.Counts links replicas (pushes + is.length) := by
  induction is generalizing c pushes with
  | nil => exact h
  | cons i is ih =>
    have hfirst := h.gossip i
    rw [Cluster.gossipAll, List.length_cons, Nat.add_comm is.length, ← Nat.add_assoc]
    generalize c.gossip i = pushed at hfirst ⊢
    obtain ⟨_ | _, c'⟩ := pushed
    · exact hfirst.mono (Nat.le_add_right _ _)
    · exact ih hfirst

/-- Links get other configurations, and what is on its way remains there. -/
theorem Counts.reconfigure {p : Nat → Nat → Bool} {config : LinkConfig}
    (h : c.Counts links replicas pushes) :
    (c.updateLinks p (·.configure config)).Counts links replicas pushes := by
  refine h.congr (List.length_map _) rfl rfl ?_
  unfold inFlight updateLinks
  rw [List.flatMap_map]
  refine congrArg List.length (List.flatMap_congr fun ch _ => ?_)
  split <;> rfl

/-! ### Time -/

/-- What is on its way arrives or stays there. -/
theorem inFlight_elapsed : c.arrivals.length + c.elapsed.inFlight = c.inFlight := by
  unfold inFlight arrivals elapsed
  dsimp only
  induction c.channels with
  | nil => rfl
  | cons ch rest ih =>
    have hqueue := congrArg List.length (ch.link.queue_tick c.config.tickTime)
    have hthere : (ch.tick c.config.tickTime).1.length =
        (ch.link.tick c.config.tickTime).1.length := List.length_map _
    have hleft : (ch.tick c.config.tickTime).2.link.queue =
        (ch.link.tick c.config.tickTime).2.queue := rfl
    rw [List.length_append] at hqueue
    rw [List.map_cons, List.flatMap_cons, List.flatMap_cons, List.flatMap_cons,
      List.length_append, List.length_append, List.length_append, hthere, hleft]
    omega

/-- A packet that has arrived is taken in or refused. -/
theorem receive_cases (c : Cluster) (x : Nat × Wire.Bytes) :
    (c.receive x).channels = c.channels ∧ (c.receive x).size = c.size ∧
      (c.receive x).stats.sent = c.stats.sent ∧
        (c.receive x).stats.merged + (c.receive x).stats.rejected =
          c.stats.merged + c.stats.rejected + 1 := by
  rw [receive]
  split
  · rw [merge_snd]
    exact ⟨rfl, List.length_modify _ _ _, rfl, Nat.add_right_comm _ _ _⟩
  · exact ⟨rfl, rfl, rfl, rfl⟩

theorem foldl_receive (xs : List (Nat × Wire.Bytes)) (c : Cluster) :
    (xs.foldl receive c).channels = c.channels ∧ (xs.foldl receive c).size = c.size ∧
      (xs.foldl receive c).stats.sent = c.stats.sent ∧
        (xs.foldl receive c).stats.merged + (xs.foldl receive c).stats.rejected =
          c.stats.merged + c.stats.rejected + xs.length := by
  induction xs generalizing c with
  | nil => exact ⟨rfl, rfl, rfl, rfl⟩
  | cons x xs ih =>
    obtain ⟨hchannels, hsize, hsent, hcount⟩ := c.receive_cases x
    obtain ⟨hchannels', hsize', hsent', hcount'⟩ := ih (c.receive x)
    rw [List.foldl_cons]
    refine ⟨hchannels'.trans hchannels, hsize'.trans hsize, hsent'.trans hsent, ?_⟩
    rw [hcount', hcount, List.length_cons]
    omega

theorem Counts.tick (h : c.Counts links replicas pushes) :
    c.tick.2.Counts links replicas pushes := by
  obtain ⟨hchannels, hsize, hsent, hcount⟩ := foldl_receive c.arrivals c.elapsed
  have hstats : c.elapsed.stats = c.stats := rfl
  rw [hstats] at hsent hcount
  have hflight : (c.arrivals.foldl receive c.elapsed).inFlight = c.elapsed.inFlight := by
    rw [inFlight, hchannels, inFlight]
  rw [tick_snd]
  constructor
  case width =>
    rw [hchannels, ← h.width]
    exact List.length_map _
  case size => exact hsize.trans h.size
  case sent =>
    rw [hsent]
    exact h.sent
  case arrived =>
    have harrived := h.arrived
    have helapsed := c.inFlight_elapsed
    rw [hflight, hsent, hcount]
    omega

theorem Counts.runUntilQuiet (h : c.Counts links replicas pushes) (bound : Nat) :
    (c.runUntilQuiet bound).2.Counts links replicas pushes := by
  induction bound generalizing c with
  | zero => exact h
  | succ bound ih =>
    rw [Cluster.runUntilQuiet]
    split
    · exact h
    · exact ih h.tick

theorem Counts.antiEntropy (h : c.Counts links replicas pushes) (bound : Nat) :
    (c.antiEntropy bound).2.Counts links replicas (pushes + replicas) := by
  have hfirst := h.gossipAll (List.range c.size)
  rw [List.length_range, h.size] at hfirst
  rw [Cluster.antiEntropy, h.size]
  generalize c.gossipAll (List.range replicas) = pushed at hfirst ⊢
  obtain ⟨_ | _, c'⟩ := pushed
  · exact hfirst
  · exact hfirst.runUntilQuiet bound

/-! ### Runs -/

theorem Counts.submit {kind : Kind} {context : Clock} {result : Result Clock}
    (h : c.Counts links replicas pushes) (hs : c.submit i kind context = .ok (result, c')) :
    c'.Counts links replicas (pushes + 1) := by
  rw [Cluster.submit] at hs
  split at hs
  · cases hs
    exact h.mono (Nat.le_succ _)
  · rename_i r hr
    cases hwrite : r.submit kind context with
    | error e =>
      rw [hwrite] at hs
      cases hs
    | ok answer =>
      obtain ⟨outcome, r'⟩ := answer
      have hstep : Counts { c with replicas := c.replicas.set i r' } links replicas pushes :=
        h.congr rfl (List.length_set ..) rfl rfl
      rw [hwrite] at hs
      dsimp only [bind, Except.bind] at hs
      cases outcome with
      | error e =>
        cases hs
        exact hstep.mono (Nat.le_succ _)
      | ok observed =>
        dsimp only at hs
        split at hs
        · cases hs
          exact hstep.gossip i
        · cases hs
          exact hstep.mono (Nat.le_succ _)

/-- How often logs are pushed at most, given the number of replicas. -/
def Call.rounds (replicas : Nat) : Call → Nat
  | .submit .. => 1
  | .gossip _ => 1
  | .tick => 0
  | .runUntilQuiet _ => 0
  | .antiEntropy _ => replicas
  | .setLink .. => 0
  | .isolate _ => 0
  | .heal => 0

/-- Each call keeps count. -/
theorem Counts.call {now : Call} (h : c.Counts links replicas pushes)
    (hcall : c.call now = .ok c') : c'.Counts links replicas (pushes + now.rounds replicas) := by
  cases now with
  | submit i kind context =>
    obtain ⟨answer, hs, rfl⟩ := exists_of_map_eq_ok hcall
    exact h.submit hs
  | gossip i =>
    cases hcall
    exact h.gossip i
  | tick =>
    cases hcall
    exact h.tick
  | runUntilQuiet bound =>
    cases hcall
    exact h.runUntilQuiet bound
  | antiEntropy bound =>
    cases hcall
    exact h.antiEntropy bound
  | setLink source target config =>
    cases hcall
    exact h.reconfigure
  | isolate i =>
    cases hcall
    exact h.reconfigure
  | heal =>
    cases hcall
    exact h.reconfigure

theorem Counts.run {calls : List Call} (h : c.Counts links replicas pushes)
    (hrun : c.run calls = .ok c') :
    c'.Counts links replicas (pushes + sizes (Call.rounds replicas) calls) := by
  induction calls generalizing c pushes with
  | nil =>
    cases hrun
    exact h
  | cons now calls ih =>
    rw [Cluster.run, List.foldlM_cons] at hrun
    cases hcall : c.call now with
    | error e =>
      rw [hcall] at hrun
      cases hrun
    | ok next =>
      rw [hcall] at hrun
      rw [sizes_cons, ← Nat.add_assoc]
      exact ih (h.call hcall) hrun

theorem counts_fresh (config : ClusterConfig) (chance : Nat → Nat → Draws) :
    (fresh config chance).Counts (pairs config.replicas).length config.replicas 0 where
  width := List.length_mapIdx
  size := size_fresh
  sent := Nat.le_refl _
  arrived := by
    have hnothing : (fresh config chance).channels.flatMap (·.link.queue) = [] := by
      refine List.flatMap_eq_nil_iff.2 fun ch hch => ?_
      obtain ⟨k, hk, rfl⟩ := List.mem_mapIdx.1 hch
      rfl
    rw [inFlight, hnothing]
    exact Nat.le_refl _

/-- **No counter of a cluster exceeds twice the number of links times that of pushes.** -/
theorem counter_le {config : ClusterConfig} {chance : Nat → Nat → Draws} {calls : List Call}
    (h : (fresh config chance).run calls = .ok c) (hn : n ∈ c.stats.counters) :
    n ≤ 2 * ((pairs config.replicas).length * sizes (Call.rounds config.replicas) calls) := by
  have hcounts := (counts_fresh config chance).run h
  have hsent := hcounts.sent
  have harrived := hcounts.arrived
  rw [Nat.zero_add] at hsent
  simp only [ClusterStats.counters, List.mem_cons, List.not_mem_nil, or_false] at hn
  omega

end Cluster

end GossipLedger
