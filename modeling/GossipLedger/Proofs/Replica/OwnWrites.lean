import GossipLedger.Proofs.Accounts.Tally
import GossipLedger.Proofs.Replica.Atomicity
import GossipLedger.Proofs.Replica.Growth

/-!
# What becomes of an acknowledged write

A write whose context the replica's clock dominates is stable when the call returns.  But it is not
the first one to be applied: the replica counts it before, so all that has been waiting for it, and
what that makes ready, stands earlier in the log and is applied first.  These operations are the
*overtakers* (`Replica.overtakers`), and `Replica.stable_written` says that the stable part grows
by them and then by the write.

An acknowledged write takes effect if what is left after the overtakers still allows it, and only
then (`Session.own_write_applied_iff`).  If nothing waits for it, there are no overtakers
(`Replica.overtakers_eq_nil`) and the write is carried out on the accounts that admitted it.

What a write has done is not kept anywhere.  It is the outcome of the operation when the stable
operations are replayed (`Accounts.outcomes`).
-/

namespace GossipLedger

/-! ### Outcomes -/

namespace Accounts

variable {a : Accounts} {kind : Kind} {l m : List Operation} {op : Operation} {outcome : Outcome}

/-- What becomes of each operation of a list when they are replayed. -/
def outcomes (a : Accounts) : List Operation → List (Operation × Outcome)
  | [] => []
  | op :: rest => (op, (a.execute op.kind).1) :: outcomes (a.execute op.kind).2 rest

theorem outcomes_append :
    a.outcomes (l ++ m) = a.outcomes l ++ (a.replay (l.map (·.kind))).outcomes m := by
  induction l generalizing a with
  | nil => rfl
  | cons op rest ih =>
    rw [List.cons_append, outcomes, outcomes, ih]
    rfl

theorem map_fst_outcomes : (a.outcomes l).map (·.1) = l := by
  induction l generalizing a with
  | nil => rfl
  | cons op rest ih => rw [outcomes, List.map_cons, ih]

/-- The outcome of the last operation, if it is not also an earlier one. -/
theorem mem_outcomes_concat (h : op ∉ l) : (op, outcome) ∈ a.outcomes (l ++ [op]) ↔
    ((a.replay (l.map (·.kind))).execute op.kind).1 = outcome := by
  have hearlier : (op, outcome) ∉ a.outcomes l := by
    intro hmem
    have hop := List.mem_map_of_mem (f := (·.1)) hmem
    rw [map_fst_outcomes] at hop
    exact h hop
  rw [outcomes_append, List.mem_append, outcomes, outcomes, List.mem_singleton]
  simp [hearlier, eq_comm]

/-- What is admitted is carried out. -/
theorem execute_eq_applied (h : a.admission kind = .ok ()) : (a.execute kind).1 = .applied := by
  obtain ⟨b, hb⟩ := exists_admits h
  rw [hb.execute]

theorem replay_append {kinds more : List Kind} :
    a.replay (kinds ++ more) = (a.replay kinds).replay more :=
  List.foldl_append

end Accounts

namespace Replica

variable {r : Replica} {kind : Kind} {context : Clock}

/-! ### Overtakers -/

/-- The waiting operations that become stable as soon as the replica counts its next write, in the
order in which they do. -/
def overtakers (r : Replica) : List Operation :=
  (r.log.settled r.counting).1.stable.drop r.log.stable.length

theorem stable_settled_counting :
    (r.log.settled r.counting).1.stable = r.log.stable ++ r.overtakers := by
  obtain ⟨applied, hstable, -, -⟩ := Log.settled_eq_applyAll r.log r.counting
  rw [overtakers, hstable, List.drop_left]

/-- Where nothing waits for the next write, nothing overtakes it. -/
theorem overtakers_eq_nil (h : r.Settled) (hroom : r.clock.get r.id ≠ Clock.maxCount)
    (hpending : ∀ op ∈ r.log.pending, ¬ op.Covers (r.draft kind context)) :
    r.overtakers = [] := by
  have hwaiting : ∀ op ∈ r.log.pending, op.isReady r.counting.clock = false := by
    intro op hop
    have hcontext : op.context.count r.id ≤ r.clock.count r.id := by
      have hnot := hpending op hop
      rw [Operation.covers_iff, rank_draft hroom] at hnot
      exact Nat.le_of_lt_succ (Nat.not_le.1 hnot)
    exact (isReady_nextStamp hroom hcontext).trans (h.waiting op hop)
  unfold overtakers
  rw [Log.settled, Log.settle_of_none hwaiting]
  exact List.drop_length

/-- **A write that is ready is applied at once, after its overtakers and before all else.** -/
theorem stable_written (hroom : r.clock.get r.id ≠ Clock.maxCount)
    (hready : r.clock.dominates context = true) :
    (r.written kind context).1.stable =
      r.log.stable ++ r.overtakers ++ [(r.draft kind context).marked] := by
  -- what has been waiting settles first
  have hwaiting : ∀ op ∈ (r.log.settled r.counting).1.pending,
      op.isReady (r.log.settled r.counting).2.clock = false := Log.not_ready_settle
  have hgrown : ∀ s, r.nextStamp.count s ≤ (r.log.settled r.counting).2.clock.count s := by
    intro s
    show r.counting.clock.count s ≤ _
    exact Log.le_count_settled
  have hdraft : (r.draft kind context).isReady (r.log.settled r.counting).2.clock = true := by
    refine Operation.isReady_of_le hgrown ?_
    exact Operation.isReady_of_le (fun _ => count_le_nextStamp hroom) hready
  -- the write has been counted before, so it makes nothing ready
  have hcount : ∀ s,
      (Ledger.apply (r.draft kind context).marked (r.log.settled r.counting).2).clock.count s =
        (r.log.settled r.counting).2.clock.count s :=
    fun _ => Ledger.count_apply_of_counted (hgrown r.id)
  have hdone : ∀ op ∈ (r.log.settled r.counting).1.pending ++ [], op.isReady (Ledger.apply
      (r.draft kind context).marked (r.log.settled r.counting).2).clock = false := by
    intro op hop
    rw [Operation.isReady_congr hcount]
    exact hwaiting op (by simpa using hop)
  have hlast : r.written kind context = Log.settled
      ⟨(r.log.settled r.counting).1.stable ++ [(r.draft kind context).marked],
        (r.log.settled r.counting).1.pending ++ []⟩
      (Ledger.apply (r.draft kind context).marked (r.log.settled r.counting).2) := by
    show (r.log.await [r.draft kind context]).settled r.counting = _
    rw [Log.settled, Log.settle_await]
    exact Log.settle_of_some rfl hwaiting hdraft
  rw [hlast, Log.settled, Log.settle_of_none hdone, stable_settled_counting]

end Replica

namespace Session

variable {id : ReplicaId} {money : UInt64} {active : Bool} {calls : List Call} {s : Session}
  {kind : Kind} {context answer : Clock} {r : Replica}

section Sound

variable (h : s.Sound id money)
  (hroom : s.replica.clock.get s.replica.id ≠ Clock.maxCount)
  (hnew : s.replica.log.contains s.replica.nextStamp = false)
  (hready : s.replica.clock.dominates context = true)

include h hroom hnew hready

/-- A write that is ready is carried out on what its overtakers have left. -/
theorem Sound.mem_outcomes_afterWrite {outcome : Outcome} :
    ((s.replica.draft kind context).marked, outcome) ∈
        (Accounts.seeded money).outcomes (s.replica.afterWrite kind context).log.stable ↔
      ((s.replica.accounts.replay (s.replica.overtakers.map (·.kind))).execute kind).1 =
        outcome := by
  have hstable : (s.replica.afterWrite kind context).log.stable = _ :=
    Replica.stable_written hroom hready
  have hdistinct : (s.replica.afterWrite kind context).log.Distinct :=
    Replica.distinct_afterWrite h.distinct hnew
  have hnodup := hdistinct.nodup_stable
  rw [hstable, List.nodup_append] at hnodup
  have hlast : (s.replica.draft kind context).marked ∉
      s.replica.log.stable ++ s.replica.overtakers := by
    intro hmem
    exact hnodup.2.2 _ hmem _ (List.mem_singleton_self _) rfl
  rw [hstable, Accounts.mem_outcomes_concat hlast, List.map_append, Accounts.replay_append,
    ← h.replays.accounts]
  exact Iff.rfl

/-- A write that is ready takes effect if no operation has been waiting for it. -/
theorem Sound.applied_afterWrite (hadmitted : s.replica.accounts.admission kind = .ok ())
    (hpending : ∀ op ∈ s.replica.log.pending, ¬ op.Covers (s.replica.draft kind context)) :
    ((s.replica.draft kind context).marked, .applied) ∈
      (Accounts.seeded money).outcomes (s.replica.afterWrite kind context).log.stable := by
  rw [h.mem_outcomes_afterWrite hroom hnew hready,
    Replica.overtakers_eq_nil h.settled hroom hpending]
  exact Accounts.execute_eq_applied hadmitted

end Sound

/-- **An acknowledged write that was ready is stable, and takes effect exactly if its overtakers
leave it possible.**  Whatever was called before: the stable part of the log grows by the overtakers
and then by the write.  If no operation has been waiting for the write, it takes effect. -/
theorem own_write_applied_iff (h : (fresh id money active).run calls = .ok s)
    (hsubmit : s.replica.submit kind context = .ok (.ok answer, r))
    (hready : s.replica.clock.dominates context = true) :
    r.log.stable =
        s.replica.log.stable ++ s.replica.overtakers ++ [(s.replica.draft kind context).marked] ∧
      (((s.replica.draft kind context).marked, .applied) ∈
          (Accounts.seeded money).outcomes r.log.stable ↔
        ((s.replica.accounts.replay (s.replica.overtakers.map (·.kind))).execute kind).1 =
          .applied) ∧
      ((∀ op ∈ s.replica.log.pending, ¬ op.Covers (s.replica.draft kind context)) →
        ((s.replica.draft kind context).marked, .applied) ∈
          (Accounts.seeded money).outcomes r.log.stable) := by
  have hsound := sound_of_run h
  cases Replica.submit_cases hsubmit with
  | accepted _ hadmitted hroom hnew =>
    refine ⟨Replica.stable_written hroom hready, ?_, ?_⟩
    · exact hsound.mem_outcomes_afterWrite hroom hnew hready
    · intro hpending
      exact hsound.applied_afterWrite hroom hnew hready hadmitted hpending

/-- A write, and a transfer of all money that waits for the next one. -/
def claimedMoney : List Call :=
  [.submit (.create "x") .zero,
    .receive
      [{ kind := .transfer "broker" "x" 1000, origin := "B", context := Clock.zero.set "A" 2,
          timestamp := Clock.zero.set "B" 1 }]]

/-- The replica after these calls, and the write that it has accepted. -/
def claimed : Session where
  replica := (((Replica.fresh "A").afterWrite (.create "x") .zero).receive
    [{ kind := .transfer "broker" "x" 1000, origin := "B", context := Clock.zero.set "A" 2,
        timestamp := Clock.zero.set "B" 1 }]).2
  accepted := [(Replica.fresh "A").draft (.create "x") .zero]

/-- A write that needs no money is applied after the transfer that has waited for it. -/
theorem claimed_create_applied : ∃ answer r,
    (fresh "A" 1000 true).run claimedMoney = .ok claimed ∧
      claimed.replica.submit (.create "y") (Clock.zero.set "A" 1) = .ok (.ok answer, r) ∧
      claimed.replica.clock.dominates (Clock.zero.set "A" 1) = true ∧
      claimed.replica.overtakers.map (·.origin) = ["B"] ∧
      ((claimed.replica.draft (.create "y") (Clock.zero.set "A" 1)).marked, .applied) ∈
        (Accounts.seeded 1000).outcomes r.log.stable := by
  have hrun : (fresh "A" 1000 true).run claimedMoney = .ok claimed := rfl
  have hsubmit : claimed.replica.submit (.create "y") (Clock.zero.set "A" 1) = .ok (.ok _, _) :=
    Replica.submit_eq_ok rfl rfl (by decide) rfl
  have hready : claimed.replica.clock.dominates (Clock.zero.set "A" 1) = true := rfl
  obtain ⟨-, happlied, -⟩ := own_write_applied_iff hrun hsubmit hready
  exact ⟨_, _, hrun, hsubmit, hready, rfl, happlied.2 rfl⟩

/-- A transfer that is ready and acknowledged has no effect: the one that declares to come after it
is applied before it and leaves no money. -/
theorem claimed_transfer_skipped : ∃ answer r,
    (fresh "A" 1000 true).run claimedMoney = .ok claimed ∧
      claimed.replica.submit (.transfer "broker" "x" 1) (Clock.zero.set "A" 1) =
        .ok (.ok answer, r) ∧
      claimed.replica.clock.dominates (Clock.zero.set "A" 1) = true ∧
      r.log.stable.map (·.origin) = ["A", "B", "A"] ∧
      ((claimed.replica.draft (.transfer "broker" "x" 1) (Clock.zero.set "A" 1)).marked,
        .skipped .insufficientFunds) ∈ (Accounts.seeded 1000).outcomes r.log.stable ∧
      ((claimed.replica.draft (.transfer "broker" "x" 1) (Clock.zero.set "A" 1)).marked,
        .applied) ∉ (Accounts.seeded 1000).outcomes r.log.stable :=
  ⟨_, _, rfl, Replica.submit_eq_ok rfl rfl (by decide) rfl, rfl, rfl, by decide +kernel,
    by decide +kernel⟩

end Session

end GossipLedger
