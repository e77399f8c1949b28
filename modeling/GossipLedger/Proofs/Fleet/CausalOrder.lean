import GossipLedger.Proofs.Fleet.CaughtUp
import GossipLedger.Proofs.Fleet.Uniqueness
import GossipLedger.Proofs.Replica.OwnWrites
import Mathlib.Data.Fintype.EquivFin

/-!
# When operations are applied in causal order

A replica counts a write as soon as it accepts it, even if the write has to wait for others.  The
clock that it then shows to clients covers an operation that is not applied, and whoever writes
with this clock overtakes that operation (`Fleet.Informed.exists_overtaking`).  A write that is
ready when it is accepted has its effect all the same (`Fleet.Reaches.takes_effect`).

The causal order is kept as long as writes go to replicas that have caught up with their contexts,
and the first write that a replica accepts ahead of its clock makes it possible to break it
(`Fleet.keepsOrder_fresh_and_step_iff`).
-/

namespace GossipLedger

/-- There is always a name for one more account. -/
theorem Accounts.exists_admission_create (a : Accounts) :
    ∃ account, a.admission (.create account) = .ok () := by
  obtain ⟨account, hnew⟩ := Infinite.exists_notMem_finset a.balances.names.toFinset
  have hnone : a.balances.get? account = none := by
    refine NameMap.find_eq_none.2 fun e he heq => hnew ?_
    rw [List.mem_toFinset, ← heq]
    exact List.mem_map_of_mem he
  have hcontains : a.contains account = false := by
    rw [contains, NameMap.contains, hnone]
    rfl
  refine ⟨account, ?_⟩
  rw [admission, hcontains]
  rfl

namespace Fleet

variable {ι κ : Type} {ids : ι → ReplicaId} {f g : Fleet ι κ} {k : κ} {i : ι} {kind : Kind}
  {context : Clock} {z : Operation}

/-- No operation that a replica knows waits for one that the replica has yet to accept. -/
theorem Informed.count_context_le (hf : f.Coherent ids) (h : f.Informed) {op : Operation}
    (hop : op ∈ (f.replicas i).log.operations) :
    op.context.count (f.replicas i).id ≤ (f.replicas i).clock.count (f.replicas i).id := by
  have hknown : op.unmarked ∈ f.accepted := (hf.within i).known _ (Log.unmarked_mem_contents hop)
  rw [(hf.within i).count_own]
  exact GossipLedger.count_context_le (x := op.unmarked) h.founded hknown

/-- A write of an honest client is applied at once, or is the last one that waits. -/
theorem Informed.log_afterWrite (hf : f.Coherent ids) (h : f.Informed)
    (hroom : (f.replicas i).clock.get (f.replicas i).id ≠ Clock.maxCount)
    (hcontext : context = .joined (f.told k)) :
    ((f.replicas i).afterWrite kind context).log =
      if (f.replicas i).clock.dominates context then
        ⟨(f.replicas i).log.stable ++ [((f.replicas i).draft kind context).marked],
          (f.replicas i).log.pending⟩
      else (f.replicas i).log.await [(f.replicas i).draft kind context] := by
  refine Replica.log_afterWrite (hf.within i).settled hroom (fun op hop => ?_) ?_
  · exact h.count_context_le hf (List.mem_append_right _ hop)
  · rw [hcontext, (hf.within i).count_own]
    exact h.count_joined_le k _

/-- A write ahead of the replica's clock waits. -/
theorem Informed.draft_not_mem_stable (hf : f.Coherent ids) (h : f.Informed)
    (hroom : (f.replicas i).clock.get (f.replicas i).id ≠ Clock.maxCount)
    (hcontext : context = .joined (f.told k))
    (hahead : (f.replicas i).clock.dominates context = false) :
    ((f.replicas i).draft kind context).marked ∉
      ((f.replicas i).afterWrite kind context).log.stable := by
  rw [h.log_afterWrite hf hroom hcontext, hahead]
  intro hmem
  have hcounted := (hf.within i).settled.counted _ hmem
  rw [Operation.rank_marked, Replica.rank_draft hroom] at hcounted
  exact absurd hcounted (Nat.not_succ_le_self _)

variable [DecidableEq ι] [DecidableEq κ]

/-! ### Writes that are applied at once -/

/-- **Among honest clients an acknowledged write that was ready takes effect**: no operation waits
for one that is yet to be accepted. -/
theorem Reaches.takes_effect (hids : Function.Injective ids) {money : ι → UInt64}
    {active : ι → Bool} (hf : Reaches Truthful (fresh ids money active) f) {answer : Clock}
    {r : Replica} (hsubmit : (f.replicas i).submit kind context = .ok (.ok answer, r))
    (hready : (f.replicas i).clock.dominates context = true) :
    (((f.replicas i).draft kind context).marked, .applied) ∈
      (Accounts.seeded (money i)).outcomes r.log.stable := by
  obtain ⟨hcoherent, hinformed⟩ := hf.informed_truthful hids
  obtain ⟨calls, accepted, hrun⟩ := hf.reached i
  have hsound := Session.sound_of_run hrun
  cases Replica.submit_cases hsubmit with
  | accepted _ hadmitted hroom hnew =>
    refine hsound.applied_afterWrite hroom hnew hready hadmitted ?_
    intro op hop
    have hcount := hinformed.count_context_le hcoherent (List.mem_append_right _ hop)
    rw [Operation.covers_iff, Replica.rank_draft hroom]
    exact Nat.not_le.2 (Nat.lt_succ_of_le hcount)

/-- The client writes at the replica, which has caught up with it and applies the write. -/
structure Applies (ids : ι → ReplicaId) (k : κ) (i : ι) (z : Operation) (f g : Fleet ι κ) :
    Prop where
  /-- The write obeys the discipline. -/
  reaches : Reaches Disciplined f g
  /-- The replica still accepts writes. -/
  active : (g.replicas i).active = true
  /-- The write is the last stable operation; what was waiting waits. -/
  log : (g.replicas i).log =
    ⟨(f.replicas i).log.stable ++ [z.marked], (f.replicas i).log.pending⟩
  /-- The write is accepted. -/
  accepted : g.accepted = f.accepted ++ [z]
  /-- The write carries all that the client was told. -/
  context : z.context = .joined (f.told k)
  /-- The write has the next number. -/
  rank : z.rank = (f.replicas i).clock.count (ids i) + 1
  /-- The replica counts the write. -/
  count : (g.replicas i).clock.count (ids i) = z.rank
  /-- The client is told the clock of the replica. -/
  told : ∀ s, (Clock.joined (g.told k)).count s = (g.replicas i).clock.count s

/-- A client that is not ahead of an active replica can write there. -/
theorem Informed.exists_applies (hf : f.Coherent ids) (h : f.Informed)
    (hactive : (f.replicas i).active = true)
    (hroom : (f.replicas i).clock.count (ids i) < Clock.maxCount.toNat)
    (hcaught : (f.replicas i).clock.dominates (.joined (f.told k)) = true) :
    ∃ z g, Applies ids k i z f g := by
  obtain ⟨account, hadmitted⟩ := (f.replicas i).accounts.exists_admission_create
  have hroom' : (f.replicas i).clock.get (f.replicas i).id ≠ Clock.maxCount :=
    Clock.get_ne_maxCount (hf.id i ▸ hroom)
  have hnew := (hf.within i).not_contains_nextStamp hf.ranked hf.stamped hroom'
  have hstep : f.step (.write k i (.create account) (.joined (f.told k))) =
      f.afterWrite k i (.create account) (.joined (f.told k)) :=
    step_write (Replica.submit_eq_ok hactive hadmitted hroom' hnew)
  have hrank : ((f.replicas i).draft (.create account) (.joined (f.told k))).rank =
      (f.replicas i).clock.count (ids i) + 1 := by
    rw [Replica.rank_draft hroom', hf.id]
  refine ⟨(f.replicas i).draft (.create account) (.joined (f.told k)),
    f.afterWrite k i (.create account) (.joined (f.told k)), ?_, ?_, ?_, rfl, rfl, hrank, ?_, ?_⟩
  · rw [← hstep]
    exact Reaches.step .refl ⟨⟨rfl, trivial⟩, hcaught⟩
  · rw [replicas_afterWrite]
    exact hactive
  · rw [replicas_afterWrite, h.log_afterWrite hf hroom' rfl, if_pos hcaught]
  · rw [hrank, replicas_afterWrite, ← hf.id]
    exact (hf.within i).count_afterWrite_self hroom' hf.ranked
  · intro s
    have hle : (Clock.joined (f.told k)).count s ≤ ((f.replicas i).afterWrite (.create account)
        (.joined (f.told k))).clock.count s :=
      Nat.le_trans (Clock.dominates_iff_count.1 hcaught s) (Replica.le_count_afterWrite hroom')
    rw [told_afterWrite, replicas_afterWrite, Clock.joined_concat, Clock.count_merged,
      Clock.count_merged]
    omega

/-! ### Overtaking -/

/-- **A write that its replica counts without having applied it is overtaken** by any client that
is not ahead of the replica and writes there twice: the answer to the first write makes the second
one depend on what is still waiting. -/
theorem Informed.exists_overtaking (hids : Function.Injective ids) (hf : f.Coherent ids)
    (h : f.Informed) {y : Operation} (hy : y ∈ f.accepted) (horigin : y.origin = ids i)
    (hwaiting : y.marked ∉ (f.replicas i).log.stable) (hactive : (f.replicas i).active = true)
    (hroom : (f.replicas i).clock.count (ids i) + 2 ≤ Clock.maxCount.toNat)
    (hcaught : (f.replicas i).clock.dominates (.joined (f.told k)) = true) :
    ∃ g, Reaches Disciplined f g ∧ ¬ g.CausallyOrdered := by
  have hrank : y.rank ≤ (f.replicas i).clock.count (ids i) := by
    have hown := (hf.within i).count_own
    rw [hf.id] at hown
    rw [hown, ← horigin]
    exact rank_le_countOf hf.ranked hy
  -- the first write is told the clock of the replica, which counts the waiting operation
  obtain ⟨z₁, g₁, h₁⟩ := h.exists_applies hf hactive (by omega) hcaught
  obtain ⟨hf₁, hi₁⟩ := h.reaches hids hf (h₁.reaches.mono fun _ _ he => he.1)
  have hcaught₁ : (g₁.replicas i).clock.dominates (.joined (g₁.told k)) = true :=
    Clock.dominates_iff_count.2 fun s => Nat.le_of_eq (h₁.told s)
  have hroom₁ : (g₁.replicas i).clock.count (ids i) < Clock.maxCount.toNat := by
    rw [h₁.count, h₁.rank]
    omega
  -- the second write carries this clock and is applied nevertheless
  obtain ⟨z₂, g₂, h₂⟩ := hi₁.exists_applies hf₁ h₁.active hroom₁ hcaught₁
  refine ⟨g₂, h₁.reaches.trans h₂.reaches, fun hordered => ?_⟩
  have hstable : (g₂.replicas i).log.stable =
      ((f.replicas i).log.stable ++ [z₁.marked]) ++ z₂.marked :: [] := by
    rw [h₂.log, h₁.log]
  have haccepted : y ∈ g₂.accepted := by
    rw [h₂.accepted, h₁.accepted]
    exact List.mem_append_left _ (List.mem_append_left _ hy)
  have hcovers : z₂.marked.Covers y := by
    rw [Operation.covers_iff, Operation.context_marked, h₂.context, h₁.told, horigin, h₁.count,
      h₁.rank]
    omega
  rcases List.mem_append.1 (hordered i _ _ _ hstable y haccepted hcovers) with hmem | hmem
  · exact hwaiting hmem
  · -- the first write has a higher number
    have heq : y.marked.rank = z₁.marked.rank := by rw [List.mem_singleton.1 hmem]
    rw [Operation.rank_marked, Operation.rank_marked, h₁.rank] at heq
    omega

/-! ### When the order is kept -/

/-- Operations are and remain applied in causal order if clients write only where a replica has
caught up. -/
def KeepsOrder (f : Fleet ι κ) : Prop :=
  ∀ g, Reaches Disciplined f g → g.CausallyOrdered

theorem keepsOrder_fresh (hids : Function.Injective ids) {money : ι → UInt64}
    {active : ι → Bool} : (fresh ids money active : Fleet ι κ).KeepsOrder := by
  intro g hg
  have hgated : Reaches Gated (fresh ids money active) g := hg.mono fun _ _ he => ⟨he.2, he.1.2⟩
  obtain ⟨hf, h⟩ := hgated.sequential hids
  exact h.causallyOrdered hf

theorem KeepsOrder.reaches (h : f.KeepsOrder) (hg : Reaches Disciplined f g) : g.KeepsOrder :=
  fun _ hg' => h _ (hg.trans hg')

/-- After a write ahead of the replica's clock, the order can be broken. -/
theorem Informed.caughtUp_of_keepsOrder (hids : Function.Injective ids) (hf : f.Coherent ids)
    (h : f.Informed) {clock : Clock} {r : Replica} {k' : κ}
    (hsubmit : (f.replicas i).submit kind (.joined (f.told k)) = .ok (.ok clock, r)) (hk : k' ≠ k)
    (hother : (f.replicas i).clock.dominates (.joined (f.told k')) = true)
    (hroom : (f.replicas i).clock.count (ids i) + 3 ≤ Clock.maxCount.toNat)
    (hkeeps : (f.step (.write k i kind (.joined (f.told k)))).KeepsOrder) :
    (f.replicas i).clock.dominates (.joined (f.told k)) = true := by
  by_contra hahead
  rw [Bool.not_eq_true] at hahead
  obtain ⟨hactive, hroom'⟩ : (f.replicas i).active = true ∧
      (f.replicas i).clock.get (f.replicas i).id ≠ Clock.maxCount := by
    cases Replica.submit_cases hsubmit with
    | accepted hactive _ hroom' _ => exact ⟨hactive, hroom'⟩
  have hreaches : Reaches Honest f (f.step (.write k i kind (.joined (f.told k)))) :=
    Reaches.step .refl ⟨rfl, trivial⟩
  rw [step_write hsubmit] at hkeeps hreaches
  obtain ⟨hf₁, h₁⟩ := h.reaches hids hf hreaches
  -- the write is counted and waits, so the other client can overtake it
  have hcount : ((f.replicas i).afterWrite kind (.joined (f.told k))).clock.count
      (f.replicas i).id = (f.replicas i).clock.count (f.replicas i).id + 1 :=
    (hf.within i).count_afterWrite_self hroom' hf.ranked
  obtain ⟨g, hg, hbroken⟩ : ∃ g, Reaches Disciplined
      (f.afterWrite k i kind (.joined (f.told k))) g ∧ ¬ g.CausallyOrdered := by
    refine h₁.exists_overtaking (y := (f.replicas i).draft kind (.joined (f.told k))) (k := k')
      (i := i) hids hf₁ ?_ (hf.id i) ?_ ?_ ?_ ?_
    · exact List.mem_append_right _ (List.mem_singleton_self _)
    · rw [replicas_afterWrite]
      exact h.draft_not_mem_stable hf hroom' rfl hahead
    · rw [replicas_afterWrite]
      exact hactive
    · rw [replicas_afterWrite, ← hf.id, hcount, hf.id]
      omega
    · rw [replicas_afterWrite, told_afterWrite_of_ne hk, Clock.dominates_iff_count]
      intro s
      exact Nat.le_trans (Clock.dominates_iff_count.1 hother s)
        (Replica.le_count_afterWrite hroom')
  exact hbroken (hkeeps g hg)

/-- **The causal order is kept exactly if no replica accepts a write ahead of its clock.**  It is
kept from the start if clients write only where a replica has caught up; and of the writes that
are accepted while it is kept, exactly those keep it whose context the replica's clock covers.
Only a client that is not ahead of the replica and room for two more writes are needed to break
it. -/
theorem keepsOrder_fresh_and_step_iff (hids : Function.Injective ids) (money : ι → UInt64)
    (active : ι → Bool) :
    (fresh ids money active : Fleet ι κ).KeepsOrder ∧
      ∀ (f : Fleet ι κ) (k k' : κ) (i : ι) (kind : Kind) (clock : Clock) (r : Replica),
        Reaches Honest (fresh ids money active) f → f.KeepsOrder →
        (f.replicas i).submit kind (.joined (f.told k)) = .ok (.ok clock, r) →
        k' ≠ k → (f.replicas i).clock.dominates (.joined (f.told k')) = true →
        (f.replicas i).clock.count (ids i) + 3 ≤ Clock.maxCount.toNat →
        ((f.step (.write k i kind (.joined (f.told k)))).KeepsOrder ↔
          (f.replicas i).clock.dominates (.joined (f.told k)) = true) := by
  refine ⟨keepsOrder_fresh hids, ?_⟩
  intro f k k' i kind clock r hreaches hkeeps hsubmit hk hother hroom
  obtain ⟨hf, h⟩ := hreaches.informed hids
  constructor
  · exact h.caughtUp_of_keepsOrder hids hf hsubmit hk hother hroom
  · intro hcaught
    exact hkeeps.reaches (Reaches.step .refl ⟨⟨rfl, trivial⟩, hcaught⟩)

/-- Two replicas, one of which has accepted a write. -/
def oneWrite : Fleet Side Side :=
  pair.run [.write .left .right (.create "x") .zero]

/-- The client that wrote at the second replica turns to the first one, which knows nothing. -/
theorem oneWrite_step_not_keepsOrder :
    Function.Injective pairIds ∧ oneWrite.KeepsOrder ∧
      ¬ (oneWrite.step
        (.write .left .left (.create "y") (.joined (oneWrite.told .left)))).KeepsOrder := by
  obtain ⟨hfresh, hiff⟩ := keepsOrder_fresh_and_step_iff (κ := Side) pairIds_injective
    (fun _ => 1000) fun _ => true
  have hreaches : Reaches Disciplined pair oneWrite := reaches_run (by decide)
  have hkeeps : oneWrite.KeepsOrder := hfresh.reaches hreaches
  have hhonest : Reaches Honest pair oneWrite := hreaches.mono fun _ _ he => he.1
  have hstep := hiff oneWrite .left .right .left (.create "y") _ _ hhonest hkeeps
    (Replica.submit_eq_ok (by decide) (by decide) (by decide) (by decide))
    (by decide) (by decide) (by decide)
  refine ⟨pairIds_injective, hkeeps, fun h => ?_⟩
  exact absurd (hstep.1 h) (by decide)

/-- A client writes at the second replica and then at the first, where its write has to wait.
Another client asks the first replica for a balance and then writes there. -/
def overtaking : List (Event Side Side) :=
  [.write .left .right (.create "x") .zero,
    .write .left .left (.create "y") (Clock.zero.set "B" 1),
    .read .right .left .broker .zero,
    .write .right .left (.create "z") (Clock.zero.set "A" 1)]

/-- The operation that waits at the end. -/
def overtaken : Operation where
  kind := .create "y"
  origin := "A"
  context := Clock.zero.set "B" 1
  timestamp := Clock.zero.set "A" 1

/-- The operation that depends on it and is applied. -/
def overtaker : Operation where
  kind := .create "z"
  origin := "A"
  context := Clock.zero.set "A" 1
  timestamp := Clock.zero.set "A" 2
  stable := true

theorem overtaking_not_causallyOrdered :
    Function.Injective pairIds ∧ Reaches Honest pair (pair.run overtaking) ∧
      ¬ (pair.run overtaking).CausallyOrdered := by
  refine ⟨pairIds_injective, reaches_run (by decide), fun h => ?_⟩
  have hstable : ((pair.run overtaking).replicas .left).log.stable = [] ++ overtaker :: [] := by
    decide
  have hmem : overtaken.marked ∈ [] :=
    h .left [] overtaker [] hstable overtaken (by decide) (by decide)
  cases hmem

end Fleet

end GossipLedger
