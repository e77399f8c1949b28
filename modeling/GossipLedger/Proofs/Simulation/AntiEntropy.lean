import GossipLedger.Proofs.Simulation.Mirror

/-!
# One round is enough

After the links of a cluster have been healed, one round of anti-entropy that comes to its end
brings every operation to every replica (`Cluster.round_spreads`), whatever has happened before:
packets may have been lost, duplicated and reordered, and some may still be on their way.

A healed link loses nothing (`Cluster.Healed`), so after all replicas have pushed their logs there
is a push of each log on its way to every other replica (`Cluster.Healed.exists_underway`).  When
nothing is on its way any more, all of them have been taken in.
-/

namespace GossipLedger

open Wire

namespace Cluster

variable {c c' c'' : Cluster} {i target : Nat} {is : List Nat} {bytes : Bytes} {r : Replica}

/-! ### Pushes on healed links -/

/-- No link loses a packet. -/
def Healed (c : Cluster) : Prop :=
  ∀ ch ∈ c.channels, ch.link.Faithful

theorem healed_heal (c : Cluster) : c.heal.Healed := by
  intro ch hch
  obtain ⟨ch, -, rfl⟩ := List.mem_map.1 hch
  rw [if_pos rfl]
  exact Link.faithful_configure LinkConfig.faithful_perfect

theorem Healed.broadcast (h : c.Healed) : (c.broadcast i bytes).Healed := by
  intro ch hch
  obtain ⟨ch, hmem, rfl⟩ := List.mem_map.1 hch
  split
  · exact (h ch hmem).send
  · exact h ch hmem

/-- What is sent is on its way. -/
theorem Healed.mem_underway (h : c.Healed) (hends : (i, target) ∈ c.channels.map Channel.ends) :
    (target, bytes) ∈ (c.broadcast i bytes).underway := by
  obtain ⟨ch, hch, heq⟩ := List.mem_map.1 hends
  cases heq
  obtain ⟨packet, hpacket, hdata⟩ := (h ch hch).exists_mem_queue_send bytes
  refine Cluster.mem_underway.2 ⟨_, List.mem_map_of_mem hch, packet, ?_, ?_⟩
  · rw [if_pos (by simp)]
    exact hpacket
  · rw [if_pos (by simp), hdata]

/-- What a push that is made can do. -/
theorem gossip_cases (h : c.gossip i = (.ok (), c')) :
    (c.replicas[i]? = none ∧ c' = c) ∨
      ∃ r bytes, c.replicas[i]? = some r ∧ r.push.bytes = .ok bytes ∧ c' = c.broadcast i bytes := by
  rw [gossip] at h
  split at h
  · cases h
    exact .inl ⟨‹_›, rfl⟩
  · split at h
    · cases h
      exact .inr ⟨_, _, ‹_›, ‹_›, rfl⟩
    · cases h

/-- What pushes leave as it was. -/
structure Pushed (c c' : Cluster) : Prop where
  /-- The replicas. -/
  replicas : c'.replicas = c.replicas
  /-- The ends of the channels. -/
  ends : c'.channels.map Channel.ends = c.channels.map Channel.ends
  /-- What is on its way. -/
  underway : ∀ x ∈ c.underway, x ∈ c'.underway
  /-- That no link loses a packet. -/
  healed : c.Healed → c'.Healed

theorem Pushed.refl (c : Cluster) : Pushed c c :=
  ⟨rfl, rfl, fun _ hx => hx, id⟩

theorem Pushed.trans (h : Pushed c c') (h' : Pushed c' c'') : Pushed c c'' :=
  ⟨h'.replicas.trans h.replicas, h'.ends.trans h.ends, fun x hx => h'.underway x (h.underway x hx),
    fun hc => h'.healed (h.healed hc)⟩

theorem pushed_of_gossip (hg : c.gossip i = (.ok (), c')) : Pushed c c' := by
  obtain ⟨-, rfl⟩ | ⟨r, bytes, -, -, rfl⟩ := gossip_cases hg
  · exact .refl c'
  · exact ⟨rfl, ends_broadcast, fun _ => mem_underway_broadcast, Healed.broadcast⟩

/-- The first of several pushes is made, and then the others. -/
theorem gossipAll_cons (h : c.gossipAll (i :: is) = (.ok (), c')) :
    ∃ next, c.gossip i = (.ok (), next) ∧ next.gossipAll is = (.ok (), c') := by
  rw [gossipAll] at h
  split at h
  · exact ⟨_, ‹_›, h⟩
  · cases h

theorem pushed_of_gossipAll (hg : c.gossipAll is = (.ok (), c')) : Pushed c c' := by
  induction is generalizing c with
  | nil =>
    cases hg
    exact .refl _
  | cons i is ih =>
    obtain ⟨next, hfirst, hrest⟩ := gossipAll_cons hg
    exact (pushed_of_gossip hfirst).trans (ih hrest)

/-- Each log that was pushed is on its way to every other replica. -/
theorem Healed.exists_underway (h : c.Healed) (hg : c.gossipAll is = (.ok (), c')) (hi : i ∈ is)
    (hr : c.replicas[i]? = some r) (hends : (i, target) ∈ c.channels.map Channel.ends) :
    ∃ bytes, Conveys bytes r.snapshot ∧ (target, bytes) ∈ c'.underway := by
  induction is generalizing c with
  | nil => cases hi
  | cons j is ih =>
    obtain ⟨next, hfirst, hrest⟩ := gossipAll_cons hg
    -- the push is the first one, or it is made later on links that are healed still
    by_cases hij : i = j
    · subst hij
      obtain ⟨hnone, -⟩ | ⟨r', bytes, hr', hbytes, rfl⟩ := gossip_cases hfirst
      · rw [hr] at hnone
        cases hnone
      · rw [hr] at hr'
        cases hr'
        exact ⟨bytes, conveys_push hbytes,
          (pushed_of_gossipAll hrest).underway _ (h.mem_underway hends)⟩
    · have hpushed := pushed_of_gossip hfirst
      refine ih (hpushed.healed h) hrest ((List.mem_cons.1 hi).resolve_left hij) ?_ ?_
      · rwa [hpushed.replicas]
      · rwa [hpushed.ends]

/-! ### The round -/

theorem mem_pairs {n source target : Nat} :
    (source, target) ∈ pairs n ↔ source < n ∧ target < n ∧ target ≠ source := by
  simp [pairs]

theorem antiEntropy_cases {bound : Nat} (h : c.antiEntropy bound = (.ok (), c')) :
    ∃ pushed, c.gossipAll (List.range c.size) = (.ok (), pushed) ∧
      c' = (pushed.runUntilQuiet bound).2 := by
  rw [antiEntropy] at h
  split at h
  · cases h
    exact ⟨_, ‹_›, rfl⟩
  · cases h

/-- A round on healed links that comes to its end. -/
theorem Mirrors.round {f : Fleet Nat Unit} {bound : Nat} (h : c.Mirrors f) (hhealed : c.Healed)
    (hround : c.antiEntropy bound = (.ok (), c')) (hquiet : c'.inFlight = 0) :
    ∃ f', Evolves c c' f f' ∧ ∀ source < c.size, ∀ target < c.size,
      ∀ x ∈ (f.replicas source).log.contents, x ∈ (f'.replicas target).log.contents := by
  obtain ⟨pushed, hpush, rfl⟩ := antiEntropy_cases hround
  obtain ⟨f₁, hfirst⟩ := h.gossipAll (List.range c.size)
  rw [hpush] at hfirst
  obtain ⟨f₂, hlater⟩ := hfirst.mirrors.runUntilQuiet bound
  refine ⟨f₂, hfirst.trans hlater, fun source hsource target htarget x hx => ?_⟩
  by_cases hne : target = source
  · subst hne
    exact (hfirst.trans hlater).kept target x hx
  · have hr : c.replicas[source]? = some (f.replicas source) := by
      rw [h.replicas, getElem?_map_range, if_pos hsource]
    have hends : (source, target) ∈ c.channels.map Channel.ends := by
      rw [h.ends]
      exact mem_pairs.2 ⟨hsource, htarget, hne⟩
    obtain ⟨bytes, hconveys, hunderway⟩ :=
      hhealed.exists_underway hpush (List.mem_range.2 hsource) hr hends
    -- nothing is on its way any more
    have hnil : (pushed.runUntilQuiet bound).2.underway = [] := by
      rwa [← List.length_eq_zero_iff, length_underway]
    obtain ⟨op, hop, rfl⟩ := Log.mem_contents.1 hx
    rcases hlater.onward _ hunderway with hleft | htaken
    · rw [hnil] at hleft
      cases hleft
    · exact htaken _ hconveys op hop

/-- **One round of anti-entropy spreads every log.**  After any calls and with any outcomes of
chance, if all links are healed and a round then ends with nothing on its way, every replica knows
every operation that any replica knew before the round, and no packet has ever been rejected. -/
theorem round_spreads (config : ClusterConfig) (chance : Nat → Nat → Draws) {calls : List Call}
    {bound : Nat} (hrun : (fresh config chance).run calls = .ok c)
    (hround : c.heal.antiEntropy bound = (.ok (), c')) (hquiet : c'.inFlight = 0) :
    (∀ r ∈ c.replicas, ∀ r' ∈ c'.replicas, ∀ x ∈ r.log.contents, x ∈ r'.log.contents) ∧
      c'.size = c.size ∧ c'.stats.rejected = 0 := by
  obtain ⟨f, hevolves⟩ := (mirrors_fresh config chance).run hrun
  have hheal : c.heal.Mirrors f := hevolves.mirrors.reconfigure.mirrors
  obtain ⟨f', hround, hspread⟩ := hheal.round (healed_heal c) hround hquiet
  refine ⟨fun r hr r' hr' => ?_, hround.size, hround.mirrors.rejected⟩
  obtain ⟨source, hsource⟩ := List.mem_iff_getElem?.1 hr
  obtain ⟨target, htarget⟩ := List.mem_iff_getElem?.1 hr'
  obtain ⟨hlt, rfl⟩ := hheal.replica hsource
  obtain ⟨hlt', rfl⟩ := hround.mirrors.replica htarget
  exact hspread source hlt target (hround.size ▸ hlt')

/-- A client writes at the first replica, which passes the write on. -/
def oneWrite : List Call :=
  [.submit 0 (.create "x") .zero]

/-- What chance decides about the packets on each link: those on the first link are lost, and those
on the others are late. -/
def lostOrLate (link _ : Nat) : Draws :=
  if link = 0 then default
  else
    let half := 1 <<< 52
    ⟨half, half, half, half, half, half, half, half⟩

/-- One packet is lost, and another one is still on its way when the links are healed. -/
theorem oneWrite_round_spreads :
    ∃ c c', (fresh { link := .hostile, tickTime := 100 } lostOrLate).run oneWrite = .ok c ∧
      (c.inFlight, c.replicas.map (·.log.size)) = (1, [1, 0, 0]) ∧
      c.heal.antiEntropy 5 = (.ok (), c') ∧ c'.inFlight = 0 ∧
      (∀ r ∈ c.replicas, ∀ r' ∈ c'.replicas, ∀ x ∈ r.log.contents, x ∈ r'.log.contents) ∧
      c'.size = c.size ∧ c'.stats.rejected = 0 := by
  obtain ⟨c, hrun, hview⟩ : ∃ c,
      (fresh { link := .hostile, tickTime := 100 } lostOrLate).run oneWrite = .ok c ∧
      (c.inFlight, c.replicas.map (·.log.size), (c.heal.antiEntropy 5).1,
        (c.heal.antiEntropy 5).2.inFlight) = (1, [1, 0, 0], .ok (), 0) :=
    exists_of_map_eq_ok (by decide +kernel)
  obtain ⟨hflight, hview⟩ := Prod.mk.inj hview
  obtain ⟨hsizes, hview⟩ := Prod.mk.inj hview
  obtain ⟨hpushed, hquiet⟩ := Prod.mk.inj hview
  have hround : c.heal.antiEntropy 5 = (.ok (), (c.heal.antiEntropy 5).2) := Prod.ext hpushed rfl
  exact ⟨c, _, hrun, Prod.ext hflight hsizes, hround, hquiet,
    round_spreads _ _ hrun hround hquiet⟩

end Cluster

end GossipLedger
