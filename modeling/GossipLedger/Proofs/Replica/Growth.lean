import GossipLedger.Proofs.Replica.LeastClock
import GossipLedger.Proofs.Replica.Invariant

/-!
# History is only appended to

Of two states of a replica, the later one *extends* the earlier one (`Replica.Extends`): its stable
part begins with that of the earlier state, operation by operation, and no operation of the earlier
log is missing.  What has become stable in between stands after what was stable before; what still
waits does so in its old order and before all newcomers.  The clock has not gone back, so what was
ready stays ready.

For logs this is `Log.Extends`.  More operations that wait keep it (`Log.Extends.await`), and so
does the promotion of one of them (`Log.Extends.promote`), hence settling (`Log.Extends.settle`).
What one call keeps is `Session.extends_step`, and what a run keeps `Session.extends_of_run`.

The order of what waits can be told by the operations alone because a log holds none of them twice
(`Log.Distinct.nodup_contents`).
-/

namespace GossipLedger

namespace Log

variable {log now : Log} {op : Operation} {ops before after : List Operation}

/-! ### Distinct operations -/

theorem Distinct.nodup_contents (h : log.Distinct) : log.contents.Nodup :=
  h.of_map

theorem Distinct.nodup_operations (h : log.Distinct) : log.operations.Nodup :=
  h.nodup_contents.of_map

theorem Distinct.nodup_stable (h : log.Distinct) : log.stable.Nodup :=
  (List.nodup_append.1 h.nodup_operations).1

theorem Distinct.nodup_pending (h : log.Distinct) : log.pending.Nodup :=
  (List.nodup_append.1 h.nodup_operations).2.1

theorem Distinct.promote (h : log.Distinct) (hlog : log.pending = before ++ op :: after) :
    Distinct ⟨log.stable ++ [op.marked], before ++ after⟩ :=
  ((contents_promote hlog).map _).nodup_iff.2 h

/-! ### Later states of a log -/

/-- The second log is a later state of the first one. -/
structure Extends (log now : Log) : Prop where
  /-- What was stable comes first, in its old order. -/
  stable : log.stable <+: now.stable
  /-- Of what was waiting, all that still waits comes first, in its old order. -/
  order : log.pending.filter (· ∈ now.pending) <+: now.pending
  /-- All else that was waiting has been marked and added to the stable part. -/
  promoted : ∀ op ∈ log.pending, op ∉ now.pending →
    op.marked ∈ now.stable.drop log.stable.length
  /-- But for marks, the later log holds what the earlier one held and what has arrived. -/
  contents : ∃ arrived, now.contents.Perm (log.contents ++ arrived)

theorem Extends.refl (log : Log) : log.Extends log where
  stable := List.prefix_rfl
  order := by
    have hall : log.pending.filter (· ∈ log.pending) = log.pending :=
      List.filter_eq_self.2 (by simp)
    exact ⟨[], by rw [hall, List.append_nil]⟩
  promoted := by
    intro op hop hnot
    exact absurd hop hnot
  contents := ⟨[], by simp⟩

/-- An operation of the earlier log is still there, at most with a mark that it did not have. -/
theorem Extends.mem_operations (h : log.Extends now) (hop : op ∈ log.operations) :
    op ∈ now.operations ∨ op ∈ log.pending ∧ op.marked ∈ now.operations := by
  rcases List.mem_append.1 hop with hs | hp
  · exact .inl (List.mem_append_left _ (h.stable.subset hs))
  · by_cases hwaits : op ∈ now.pending
    · exact .inl (List.mem_append_right _ hwaits)
    · have hdrop := h.promoted op hp hwaits
      exact .inr ⟨hp, List.mem_append_left _ (List.mem_of_mem_drop hdrop)⟩

/-- Operations that come in are put behind all that waits. -/
theorem Extends.await (h : log.Extends now) (hd : (now.await ops).Distinct) :
    log.Extends (now.await ops) where
  stable := h.stable
  order := by
    obtain ⟨arrived, hperm⟩ := h.contents
    have hnodup := hd.nodup_contents
    rw [contents_await, List.nodup_append] at hnodup
    -- none of the newcomers was there before
    have hnew : ∀ op ∈ log.pending, op ∉ ops := by
      intro op hop hops
      have hold : op.unmarked ∈ log.contents :=
        unmarked_mem_contents (List.mem_append_right _ hop)
      have hnow : op.unmarked ∈ now.contents := hperm.mem_iff.2 (List.mem_append_left _ hold)
      exact hnodup.2.2 _ hnow _ (List.mem_map_of_mem hops) rfl
    have hfilter : log.pending.filter (· ∈ (now.await ops).pending) =
        log.pending.filter (· ∈ now.pending) := by
      refine List.filter_congr fun op hop => ?_
      simp [hnew op hop]
    rw [hfilter, pending_await]
    exact h.order.trans (List.prefix_append _ _)
  promoted := by
    intro op hop hnot
    refine h.promoted op hop fun hwaits => hnot ?_
    simp [hwaits]
  contents := by
    obtain ⟨arrived, hperm⟩ := h.contents
    refine ⟨arrived ++ ops.map Operation.unmarked, ?_⟩
    rw [contents_await, ← List.append_assoc]
    exact hperm.append_right _

/-- The promotion of an operation takes it out of what waits and puts it behind all that is
stable. -/
theorem Extends.promote (h : log.Extends now) (hd : now.Distinct)
    (hnow : now.pending = before ++ op :: after) :
    log.Extends ⟨now.stable ++ [op.marked], before ++ after⟩ where
  stable := h.stable.trans (List.prefix_append _ _)
  order := by
    have hnodup := hd.nodup_pending
    rw [hnow, List.nodup_middle, List.nodup_cons] at hnodup
    have hgone : op ∉ before ++ after := hnodup.1
    have hrest : (before ++ op :: after).filter (· ≠ op) = before ++ after := by
      have hkeep : ∀ x ∈ before ++ after, x ≠ op := by
        rintro x hx rfl
        exact hgone hx
      rw [List.filter_append, List.filter_cons_of_neg (by simp), ← List.filter_append,
        List.filter_eq_self.2 (by simpa using hkeep)]
    -- both lists lose the promoted operation and nothing else
    have hprefix := h.order.filter (· ≠ op)
    rw [hnow, hrest, List.filter_filter] at hprefix
    have hfilter : log.pending.filter (· ∈ before ++ after) =
        log.pending.filter fun x => x ≠ op && x ∈ before ++ op :: after := by
      refine List.filter_congr fun x _ => ?_
      by_cases hx : x = op
      · subst hx
        simpa using hgone
      · simp [hx]
    rw [hfilter]
    exact hprefix
  promoted := by
    intro x hx hnot
    have hle : log.stable.length ≤ now.stable.length := h.stable.length_le
    rw [List.drop_append_of_le_length hle]
    by_cases heq : x = op
    · subst heq
      simp
    · have hwaited : x ∉ now.pending := by
        rw [hnow]
        simpa [heq] using hnot
      exact List.mem_append_left _ (h.promoted x hx hwaited)
  contents := by
    obtain ⟨arrived, hperm⟩ := h.contents
    exact ⟨arrived, (contents_promote hnow).trans hperm⟩

theorem Extends.settle {σ : Type} {clockOf : σ → Clock} {apply : Operation → σ → σ} {s : σ}
    (h : log.Extends now) (hd : now.Distinct) :
    log.Extends (Log.settle clockOf apply now s).1 := by
  suffices hall : (Log.settle clockOf apply now s).1.Distinct ∧
      log.Extends (Log.settle clockOf apply now s).1 from hall.2
  refine settle_induction (P := fun now _ => now.Distinct ∧ log.Extends now) ?_ ⟨hd, h⟩
  intro now _ before op after hnow _ _ ih
  exact ⟨ih.1.promote hnow, ih.2.promote ih.1 hnow⟩

end Log

namespace Replica

variable {r now : Replica}

/-! ### Later states of a replica -/

/-- The second replica is a later state of the first one. -/
structure Extends (r now : Replica) : Prop extends r.log.Extends now.log where
  /-- An operation of the earlier log is still there, at most with a mark that it did not have. -/
  known : ∀ op ∈ r.log.operations,
    op ∈ now.log.operations ∨ op ∈ r.log.pending ∧ op.marked ∈ now.log.operations
  /-- The clock has not gone back. -/
  clock : now.clock.dominates r.clock = true
  /-- What was ready stays ready. -/
  ready : ∀ context, r.clock.dominates context = true → now.clock.dominates context = true

theorem extends_of_log_of_count (hlog : r.log.Extends now.log)
    (hclock : ∀ s, r.clock.count s ≤ now.clock.count s) : r.Extends now where
  toExtends := hlog
  known _ hop := hlog.mem_operations hop
  clock := Clock.dominates_iff_count.2 hclock
  ready _ hcontext := Clock.dominates_trans (Clock.dominates_iff_count.2 hclock) hcontext

end Replica

namespace Session

variable {id : ReplicaId} {money : UInt64} {active : Bool} {calls more : List Call}
  {s t u : Session}

/-- Whatever a call can do extends the earlier states of the log and sets no count back. -/
theorem extends_step {log : Log} {clock : Clock} (h : s.Sound id money) (hcase : CallCase s t)
    (hlog : log.Extends s.replica.log)
    (hclock : ∀ r, clock.count r ≤ s.replica.clock.count r) :
    log.Extends t.replica.log ∧ ∀ r, clock.count r ≤ t.replica.clock.count r := by
  cases hcase with
  | @accepted kind context hroom _ hnew =>
    have hd : (s.replica.log.await [s.replica.draft kind context]).Distinct :=
      h.distinct.await_singleton hnew
    refine ⟨(hlog.await hd).settle hd, fun r => ?_⟩
    exact Nat.le_trans (hclock r) (Replica.le_count_afterWrite hroom)
  | @received ops =>
    have hd : (s.replica.log.await (s.replica.log.news ops)).Distinct := h.distinct.await_news
    refine ⟨?_, fun r => ?_⟩
    · rw [Replica.log_receive h.settled]
      exact (hlog.await hd).settle hd
    · exact Nat.le_trans (hclock r) (Replica.le_count_receive h.settled r)
  | quiet hr =>
    rw [hr.log, hr.clock]
    exact ⟨hlog, hclock⟩

/-- **History is only appended to, and clocks only grow.**  Of any two states of a replica in a run
with arbitrary contexts and arbitrary received operations, the later one extends the earlier one. -/
theorem extends_of_run (hs : (fresh id money active).run calls = .ok s)
    (ht : s.run more = .ok t) : s.replica.Extends t.replica := by
  suffices hall : s.replica.log.Extends t.replica.log ∧
      ∀ r, s.replica.clock.count r ≤ t.replica.clock.count r from
    Replica.extends_of_log_of_count hall.1 hall.2
  refine (sound_of_run hs).invariant (I := fun t => s.replica.log.Extends t.replica.log ∧
    ∀ r, s.replica.clock.count r ≤ t.replica.clock.count r) ht
      ⟨.refl _, fun _ => Nat.le_refl _⟩ ?_
  rintro t u hsound ⟨hlog, hclock⟩ hcase
  exact extends_step hsound hcase hlog hclock

/-- A write that is applied at once and three operations that wait, the outer two for the same
replica and the middle one for another. -/
def waitingRoom : List Call :=
  [.submit (.create "x") .zero,
    .receive
      [{ kind := .create "p", origin := "B", context := Clock.zero.set "C" 1,
          timestamp := Clock.zero.set "B" 2 },
        { kind := .create "q", origin := "C", context := Clock.zero.set "B" 1,
          timestamp := Clock.zero.set "C" 4 },
        { kind := .create "r", origin := "D", context := Clock.zero.set "C" 5,
          timestamp := Clock.zero.set "D" 1 }]]

/-- What the middle one has waited for, which brings the first one after it; the last one stays. -/
def lateArrival : List Call :=
  [.deactivate,
    .submit (.create "y") .zero,
    .receive
      [{ kind := .transfer "broker" "x" 5, origin := "B", context := Clock.zero.set "A" 1,
          timestamp := Clock.zero.set "B" 1, stable := true }],
    .activate,
    .submit (.create "y") (Clock.zero.set "E" 1)]

theorem lateArrival_extends : ∃ s t, (fresh "A" 1000 true).run waitingRoom = .ok s ∧
    s.run lateArrival = .ok t ∧ s.replica.log.pending.map (·.kind.account) = ["p", "q", "r"] ∧
    t.replica.log.stable.map (·.kind.account) = ["x", "broker", "q", "p"] ∧
    t.replica.log.pending.map (·.kind.account) = ["r", "y"] ∧ s.replica.Extends t.replica := by
  obtain ⟨s, hs, hwaiting⟩ : ∃ s, (fresh "A" 1000 true).run waitingRoom = .ok s ∧
      s.replica.log.pending.map (·.kind.account) = ["p", "q", "r"] :=
    exists_of_map_run rfl
  obtain ⟨t, ht, hview⟩ : ∃ t, (fresh "A" 1000 true).run (waitingRoom ++ lateArrival) = .ok t ∧
      (t.replica.log.stable.map (·.kind.account), t.replica.log.pending.map (·.kind.account)) =
        (["x", "broker", "q", "p"], ["r", "y"]) :=
    exists_of_map_run rfl
  rw [run_append hs] at ht
  obtain ⟨hstable, hpending⟩ := Prod.mk.inj hview
  exact ⟨s, t, hs, ht, hwaiting, hstable, hpending, extends_of_run hs ht⟩

end Session

end GossipLedger
