import GossipLedger.Proofs.Fleet.Agreement

/-!
# Writing only where a replica has caught up

If clients write only where the replica's clock covers their context, then every replica applies
at once whatever it learns.  Its log is a causal order of its operations (`Replica.Current`), and
so is every snapshot.  Such a log stays one if it takes in such a snapshot, although the two may
order their operations differently (`Replica.Current.news`): what the log does not know yet comes
after everything else, and it is promoted in one sweep (`Log.log_settled`).

Hence no replica ever has a gap (`Fleet.Reaches.gapless`).
-/

namespace GossipLedger

/-! ### Settling a causal order -/

theorem countOf_map_unmarked {s : ReplicaId} {l : List Operation} :
    countOf s (l.map Operation.unmarked) = countOf s l := by
  rw [countOf, List.countP_map]
  rfl

namespace Log

variable {log : Log} {l : Ledger}

theorem contents_eq_map_stable (h : log.pending = []) :
    log.contents = log.stable.map Operation.unmarked := by
  rw [contents, operations, h, List.append_nil]

/-- If the waiting operations continue a causal order that was applied, all of them are applied in
their order. -/
theorem log_settled (h : History Follows log.contents)
    (hcount : ∀ s, countOf s log.stable ≤ l.clock.count s) :
    (log.settled l).1 = ⟨log.stable ++ log.pending.map Operation.marked, []⟩ := by
  obtain ⟨applied, waiting⟩ := log
  induction waiting generalizing applied l with
  | nil =>
    rw [settled, settle_of_none (by simp), List.map_nil, List.append_nil]
  | cons op rest ih =>
    have hfollows : Follows (applied.map Operation.unmarked) op.unmarked := by
      rw [contents, operations, List.map_append, List.map_cons] at h
      exact h.holds
    -- the clock counts all that was applied, so the first waiting operation is ready
    have hready : op.isReady l.clock = true := Operation.isReady_iff.2 fun s =>
      Nat.le_trans (hfollows.2 s) (countOf_map_unmarked (l := applied) ▸ hcount s)
    have hrest : History Follows (contents ⟨applied ++ [op.marked], rest⟩) := by
      simpa [contents, operations] using h
    have hcounted : ∀ s, countOf s (applied ++ [op.marked]) ≤
        (Ledger.apply op.marked l).clock.count s := by
      intro s
      have hrank : op.rank = countOf op.origin applied + 1 := by
        rw [← countOf_map_unmarked]
        exact hfollows.1
      rw [countOf_concat, Ledger.count_apply, Operation.origin_marked, Operation.rank_marked]
      split
      · rename_i ho
        rw [hrank, ← ho]
        exact Nat.le_max_right _ _
      · exact hcount s
    calc (settled ⟨applied, op :: rest⟩ l).1
        = (settled ⟨applied ++ [op.marked], rest⟩ (Ledger.apply op.marked l)).1 :=
          congrArg Prod.fst (settle_cons rfl hready)
      _ = ⟨applied ++ [op.marked] ++ rest.map Operation.marked, []⟩ := ih _ hrest hcounted
      _ = ⟨applied ++ (op :: rest).map Operation.marked, []⟩ := by
          rw [List.append_assoc, List.singleton_append, List.map_cons]

end Log

/-! ### Replicas without gaps -/

namespace Replica

variable {r : Replica} {accepted ops : List Operation} {kind : Kind} {context : Clock}

/-- The replica has applied all that it knows, in a causal order. -/
structure Current (r : Replica) : Prop where
  /-- No operation waits. -/
  applied : r.log.pending = []
  /-- The operations are in a causal order. -/
  causal : History Follows r.log.contents
  /-- The clock counts at most the operations in the log. -/
  count_le : ∀ s, r.clock.count s ≤ countOf s r.log.contents

theorem current_fresh {id : ReplicaId} {money : UInt64} {active : Bool} :
    (fresh id money active).Current where
  applied := rfl
  causal := .nil
  count_le _ := Nat.le_refl _

section Current

variable (h : r.Current) (hs : r.Settled)

include h hs

/-- The clock of a replica without gaps counts the operations in its log. -/
theorem Current.count_eq (s : ReplicaId) : r.clock.count s = countOf s r.log.contents := by
  refine Nat.le_antisymm (h.count_le s) ?_
  exact hs.countOf_le_count h.causal.ranked
    (hs.applied h.causal.ranked h.causal.founded fun _ hx => hx) s

theorem Current.countOf_stable (s : ReplicaId) : countOf s r.log.stable = r.clock.count s := by
  rw [h.count_eq hs, Log.contents_eq_map_stable h.applied, countOf_map_unmarked]

end Current

/-- Settling a causal order, of which the clock counts all that is applied and not more than there
is, leaves no gap. -/
theorem current_of_settled {log : Log} {l : Ledger} (hlog : r.log = (log.settled l).1)
    (hclock : r.clock = (log.settled l).2.clock) (h : History Follows log.contents)
    (hge : ∀ s, countOf s log.stable ≤ l.clock.count s)
    (hle : ∀ s, l.clock.count s ≤ countOf s log.contents) : r.Current := by
  have hsettled := Log.log_settled h hge
  have hcontents : r.log.contents = log.contents := by
    rw [hlog, hsettled]
    simp [Log.contents, Log.operations]
  refine ⟨?_, ?_, ?_⟩
  · rw [hlog, hsettled]
  · rwa [hcontents]
  · rw [hcontents, hclock]
    refine Log.count_settled_le hle fun op hop => ?_
    have hmem : op.unmarked ∈ log.contents :=
      Log.unmarked_mem_contents (List.mem_append_right _ hop)
    exact rank_le_countOf (x := op.unmarked) h.ranked hmem

/-- A write that the replica has caught up with is applied at once. -/
theorem Current.afterWrite (h : r.Current) (hs : r.Settled)
    (hroom : r.clock.get r.id ≠ Clock.maxCount) (hcontext : r.clock.dominates context = true) :
    (r.afterWrite kind context).Current := by
  have hcontents : (r.log.await [r.draft kind context]).contents =
      r.log.contents ++ [r.draft kind context] := Log.contents_await
  refine current_of_settled (r := r.afterWrite kind context) rfl rfl ?_ ?_ ?_
  · rw [hcontents]
    refine .concat h.causal ⟨?_, fun s => ?_⟩
    · rw [Ranked, rank_draft hroom, h.count_eq hs]
      rfl
    · rw [← h.count_eq hs]
      exact Clock.dominates_iff_count.1 hcontext s
  · intro s
    rw [Log.stable_await, h.countOf_stable hs]
    exact count_le_nextStamp hroom
  · intro s
    rw [hcontents]
    by_cases ho : s = r.id
    · rw [ho, count_nextStamp_self hroom, h.count_eq hs]
      exact Nat.le_of_eq (countOf_concat_self (x := r.draft kind context)).symm
    · rw [count_nextStamp_of_ne ho, h.count_eq hs]
      exact countOf_le_concat

section News

variable (hranked : History Ranked accepted) (hstamped : History Stamped accepted)
  {log : Log} (hknown : ∀ x ∈ log.contents, x ∈ accepted)

include hranked hstamped hknown

/-- With its news a log knows the whole batch. -/
theorem mem_append_news (hops : ∀ op ∈ ops, op.unmarked ∈ accepted) :
    ∀ op ∈ ops, op.unmarked ∈ log.contents ++ log.news ops := by
  intro op hop
  obtain ⟨y, hy, hstamp⟩ : ∃ y ∈ (log.await (log.news ops)).contents,
      y.timestamp.stamp = op.timestamp.stamp := Log.exists_mem_contents_await_news hop
  rw [Log.contents_await_news] at hy
  have hya : y ∈ accepted := Log.mem_of_mem_append_news hknown hops y hy
  obtain rfl := eq_of_stamp hranked hstamped hya (hops op hop) hstamp
  exact hy

/-- **A causal order stays one when it takes in the news of another one**, even if the two order
what they have in common differently. -/
theorem causal_news (hlog : History Follows log.contents)
    (hcausal : History Follows (ops.map Operation.unmarked))
    (hops : ∀ op ∈ ops, op.unmarked ∈ accepted) :
    History Follows (log.contents ++ log.news ops) := by
  generalize hm : ops.map Operation.unmarked = m at hcausal
  induction hcausal generalizing ops with
  | nil =>
    rw [List.map_eq_nil_iff.1 hm, Log.news, List.append_nil]
    exact hlog
  | @concat before x hbefore hx ih =>
    obtain ⟨ops, last, rfl, rfl, hlast⟩ := List.map_eq_append_iff.1 hm
    obtain ⟨op, rfl, rfl⟩ := List.map_eq_singleton_iff.1 hlast
    have hops' : ∀ q ∈ ops, q.unmarked ∈ accepted :=
      fun q hq => hops q (List.mem_append_left _ hq)
    have ih := ih hops' rfl
    rw [Log.news_append]
    cases hnew : (log.await (log.news ops)).contains op.timestamp with
    | true =>
      rw [Log.news_cons_of_contains hnew, Log.news, List.append_nil]
      exact ih
    | false =>
      -- the log knows all that stands before the operation in the batch
      have hle : ∀ s, countOf s (ops.map Operation.unmarked) ≤
          countOf s (log.contents ++ log.news ops) := fun s =>
        countOf_le_of_subset hbefore.ranked ih.ranked
          (List.forall_mem_map.2 (mem_append_news hranked hstamped hknown hops'))
      rw [Log.news_cons_of_not_contains hnew, Log.news, ← List.append_assoc]
      refine .concat ih ⟨Nat.le_antisymm ?_ ?_, fun s => Nat.le_trans (hx.2 s) (hle s)⟩
      · rw [hx.1]
        exact Nat.succ_le_succ (hle _)
      · -- if its number were counted already, the log would hold the operation
        refine Nat.lt_of_not_le fun hrank => ?_
        have hmem : op.unmarked ∈ log.contents ++ log.news ops :=
          mem_of_rank_le hranked ih.ranked (Log.mem_of_mem_append_news hknown hops')
            (hops op (by simp)) hrank
        rw [← Log.contents_await_news] at hmem
        have hcontains := Log.contains_iff.2 ⟨_, hmem, rfl⟩
        rw [Operation.timestamp_unmarked, hnew] at hcontains
        cases hcontains

end News

/-- A causal order that is delivered is applied at once. -/
theorem Current.receive (h : r.Current) (hr : r.Within accepted)
    (hranked : History Ranked accepted) (hstamped : History Stamped accepted)
    (hcausal : History Follows (ops.map Operation.unmarked))
    (hops : ∀ op ∈ ops, op.unmarked ∈ accepted) : (r.receive ops).2.Current := by
  refine current_of_settled (log_receive hr.settled) (clock_receive hr.settled) ?_ ?_ ?_
  · rw [Log.contents_await_news]
    exact causal_news hranked hstamped hr.known h.causal hcausal hops
  · intro s
    exact Nat.le_of_eq (h.countOf_stable hr.settled s)
  · intro s
    rw [Log.contents_await_news, countOf_append]
    exact Nat.le_trans (h.count_le s) (Nat.le_add_right _ _)

end Replica

namespace Fleet

variable {ι κ : Type} {ids : ι → ReplicaId} {f g : Fleet ι κ}

/-- Neither a replica nor a snapshot has a gap. -/
structure Sequential (f : Fleet ι κ) : Prop where
  /-- The replicas. -/
  current : ∀ i, (f.replicas i).Current
  /-- The snapshots. -/
  posted : ∀ snapshot ∈ f.posted, History Follows (snapshot.map Operation.unmarked)

theorem sequential_fresh {money : ι → UInt64} {active : ι → Bool} :
    (fresh ids money active : Fleet ι κ).Sequential where
  current _ := Replica.current_fresh
  posted := nofun

theorem Sequential.alike (h : f.Sequential) (hfg : f.Alike g) : g.Sequential where
  current i := by
    refine ⟨?_, ?_, ?_⟩
    · rw [hfg.log i]
      exact (h.current i).applied
    · rw [hfg.log i]
      exact (h.current i).causal
    · rw [hfg.log i, hfg.clock i]
      exact (h.current i).count_le
  posted := hfg.posted ▸ h.posted

theorem Sequential.post (h : f.Sequential) {i : ι} :
    ({ f with posted := f.posted ++ [(f.replicas i).snapshot] } : Fleet ι κ).Sequential where
  current := h.current
  posted s hs := by
    rcases List.mem_append.1 hs with hs | hs
    · exact h.posted s hs
    · rw [List.mem_singleton.1 hs]
      exact (h.current i).causal

variable [DecidableEq ι]

theorem Sequential.put (h : f.Sequential) {i : ι} {r : Replica} (hr : r.Current) :
    (f.put i r).Sequential where
  current := (Function.forall_update_iff f.replicas fun _ r => r.Current).2
    ⟨hr, fun j _ => h.current j⟩
  posted := h.posted

variable [DecidableEq κ]

theorem Sequential.step (hf : f.Coherent ids) (h : f.Sequential) {e : Event ι κ}
    (hrule : f.Gated e) : (f.step e).Sequential := by
  have hcase := step_cases f e
  generalize f.step e = g at hcase ⊢
  cases hcase with
  | @accepted k i kind context hroom =>
    have hr : ((f.replicas i).afterWrite kind context).Current :=
      (h.current i).afterWrite (hf.within i).settled hroom hrule.1
    have hput : (f.put i ((f.replicas i).afterWrite kind context)).Sequential := h.put hr
    exact ⟨hput.current, hput.posted⟩
  | quiet hfg => exact h.alike hfg
  | answered => exact ⟨h.current, h.posted⟩
  | posted => exact h.post
  | @delivered i ops =>
    have hops : ops ∈ f.posted := hrule.2
    exact h.put ((h.current i).receive (hf.within i) hf.ranked hf.stamped (h.posted ops hops)
      (hf.posted ops hops))

theorem Reaches.sequential (hids : Function.Injective ids) {money : ι → UInt64}
    {active : ι → Bool} (hf : Reaches Gated (fresh ids money active) f) :
    f.Coherent ids ∧ f.Sequential :=
  hf.invariant_of_coherent hids (fun _ _ he => he.2.copies) coherent_fresh sequential_fresh
    fun _ _ hf h he => h.step hf he

/-! ### No gaps -/

/-- What an applied operation covers was applied before it. -/
def CausallyOrdered (f : Fleet ι κ) : Prop :=
  ∀ i before y after, (f.replicas i).log.stable = before ++ y :: after →
    ∀ x ∈ f.accepted, y.Covers x → x.marked ∈ before

/-- Every replica has applied all that it knows, and of each origin the first operations. -/
structure Gapless (f : Fleet ι κ) : Prop where
  /-- No operation waits. -/
  applied : ∀ i, (f.replicas i).log.pending = []
  /-- The operations of an origin are its first ones, as many as the clock counts. -/
  first : ∀ i r, ((f.replicas i).log.stable.filter (·.origin = r)).map Operation.unmarked =
    (f.accepted.filter (·.origin = r)).take ((f.replicas i).clock.get r).toNat
  /-- They carry the numbers from 1 on. -/
  numbered : ∀ i r, ((f.replicas i).log.stable.filter (·.origin = r)).map (·.sequence.toNat) =
    List.range' 1 ((f.replicas i).clock.get r).toNat
  /-- They stand behind all that they cover. -/
  ordered : f.CausallyOrdered

section Sequential

omit [DecidableEq ι] [DecidableEq κ]

/-- The operations of an origin, with and without marks. -/
theorem Sequential.filter_contents (h : f.Sequential) (i : ι) (r : ReplicaId) :
    (f.replicas i).log.contents.filter (·.origin = r) =
      ((f.replicas i).log.stable.filter (·.origin = r)).map Operation.unmarked := by
  rw [Log.contents_eq_map_stable (h.current i).applied, List.filter_map]
  rfl

variable (hf : f.Coherent ids) (h : f.Sequential)

include hf h

theorem Sequential.causallyOrdered : f.CausallyOrdered := by
  intro i before y after hstable x hx hcovers
  have hcurrent := h.current i
  have hsettled := (hf.within i).settled
  have hcontents : (f.replicas i).log.contents =
      before.map Operation.unmarked ++ y.unmarked :: after.map Operation.unmarked := by
    rw [Log.contents_eq_map_stable hcurrent.applied, hstable, List.map_append, List.map_cons]
  have hcausal := hcurrent.causal
  have hknown := (hf.within i).known
  rw [hcontents] at hcausal hknown
  have hmem : x ∈ before.map Operation.unmarked := by
    refine mem_of_covers hf.ranked hcausal (fun z hz => hknown z ?_) hx hcovers
    exact List.mem_append_left _ hz
  obtain ⟨op, hop, rfl⟩ := List.mem_map.1 hmem
  have hmarked : op.stable = true :=
    hsettled.tidy.stable op (hstable ▸ List.mem_append_left _ hop)
  rwa [Operation.marked_unmarked, Operation.marked_eq_self hmarked]

theorem Sequential.noGaps : f.Gapless := by
  have hcount : ∀ i r, ((f.replicas i).clock.get r).toNat =
      countOf r (f.replicas i).log.contents :=
    fun i r => (h.current i).count_eq (hf.within i).settled r
  refine ⟨fun i => (h.current i).applied, fun i r => ?_, fun i r => ?_, h.causallyOrdered hf⟩
  · rw [← h.filter_contents, hcount]
    exact filter_eq_take hf.ranked (h.current i).causal.ranked (hf.within i).known
  · have hranks := map_rank_filter (r := r) (h.current i).causal.ranked
    rw [h.filter_contents, List.map_map] at hranks
    rw [hcount, ← hranks]
    rfl

end Sequential

/-- **Gated writes keep every replica fully applied.**  If clients write only where the replica's
clock covers their context, then in whatever order snapshots are delivered, every replica has
applied all that it knows: of each origin the first operations, in their order, and each operation
behind all that it covers. -/
theorem Reaches.gapless (hids : Function.Injective ids) {money : ι → UInt64} {active : ι → Bool}
    (hf : Reaches Gated (fresh ids money active) f) : f.Gapless := by
  obtain ⟨hc, h⟩ := hf.sequential hids
  exact h.noGaps hc

/-- Two replicas accept a write each, hear of each other in opposite orders, and one of them accepts
a write that depends on both. -/
def crossing : List (Event Side Side) :=
  [.write .left .left (.create "x") .zero,
    .write .right .right (.create "y") .zero,
    .post .left,
    .post .right,
    .deliver .left ((Replica.fresh "B" 1000 true).afterWrite (.create "y") .zero).snapshot,
    .deliver .right ((Replica.fresh "A" 1000 true).afterWrite (.create "x") .zero).snapshot,
    .write .right .left (.create "z") ((Clock.zero.set "A" 1).set "B" 1)]

theorem crossing_gapless :
    Function.Injective pairIds ∧ Reaches Gated pair (pair.run crossing) ∧
      (pair.run crossing).accepted.length = 3 ∧ (pair.run crossing).Gapless := by
  have hrun : Reaches Gated pair (pair.run crossing) := reaches_run (by decide)
  exact ⟨pairIds_injective, hrun, by decide, hrun.gapless pairIds_injective⟩

end Fleet

end GossipLedger
