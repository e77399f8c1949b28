import GossipLedger.Proofs.Replica.Intake

/-!
# How far a replica counts

What a replica counts are its calls and the operations that these have brought
(`Session.tallies_of_run`).  Each write was accepted or refused, if it has not collided with an
operation that the log holds; each operation that was accepted or received is in the log or was
skipped; and what was promoted is in the log.  So no counter exceeds the number of the calls
together with that of the operations in them (`Session.counter_le_volume`), and counters of a fixed
width show the same as long as that number has a place in them.  In the same way, the size of a
batch and the number of operations that wait bound a report (`Replica.Settled.report_le`).
-/

namespace GossipLedger

namespace Call

/-- Whether a client writes. -/
def isWrite : Call → Bool
  | submit .. => true
  | read .. => false
  | receive _ => false
  | activate => false
  | deactivate => false

/-- The operations that arrive, if some do. -/
def batch? : Call → Option (List Operation)
  | receive ops => some ops
  | submit .. => none
  | read .. => none
  | activate => none
  | deactivate => none

end Call

/-- All counters of a report. -/
def Report.counters (report : Report) : List Nat :=
  [report.inserted, report.duplicates, report.promoted]

/-- All counters of a replica. -/
def Stats.counters (stats : Stats) : List Nat :=
  [stats.submitted, stats.rejected, stats.mergedBatches, stats.duplicatesSkipped, stats.promoted,
    stats.transfersSkipped]

namespace Accounts

variable {a : Accounts} {kinds : List Kind}

/-- At most each operation is a transfer without effect. -/
theorem skippedTransfers_le : a.skippedTransfers kinds ≤ kinds.length := by
  induction kinds generalizing a with
  | nil => exact Nat.le_refl _
  | cons kind rest ih =>
    have hskips : a.skips kind ≤ 1 := by
      rw [skips]
      split <;> decide
    have hrest : (a.execute kind).2.skippedTransfers rest ≤ rest.length := ih
    rw [skippedTransfers, List.length_cons]
    omega

end Accounts

namespace Replica

variable {r : Replica} {ops : List Operation} {n : Nat}

/-- A report counts operations of the batch, and promotions of these or of operations that have
waited for them. -/
theorem Settled.report_le (h : r.Settled) (hn : n ∈ (r.receive ops).1.counters) :
    n ≤ r.log.pending.length + ops.length := by
  have htakes : r.TakesIn ops (r.receive ops).1 (r.receive ops).2 := takesIn_receive h
  have hduplicates := htakes.duplicates
  have hsize := htakes.size
  have hpromoted := htakes.promoted
  rw [Log.size, Log.size, Log.operations, Log.operations, List.length_append, List.length_append]
    at hsize
  simp only [Report.counters, List.mem_cons, List.not_mem_nil, or_false] at hn
  omega

end Replica

namespace Session

variable {id : ReplicaId} {money : UInt64} {active : Bool} {calls : List Call} {s t : Session}
  {c : Call} {n : Nat}

/-- The batches that some calls have brought. -/
def batches (calls : List Call) : List (List Operation) :=
  calls.filterMap Call.batch?

/-- The number of some calls, together with that of the operations that they have brought. -/
def volume (calls : List Call) : Nat :=
  calls.length + (batches calls).flatten.length

/-- A replica has counted its calls. -/
structure Tallies (s : Session) (calls : List Call) : Prop where
  /-- The accepted writes. -/
  submitted : s.replica.stats.submitted = s.accepted.length
  /-- No write was both accepted and refused. -/
  writes : s.replica.stats.submitted + s.replica.stats.rejected ≤ calls.countP Call.isWrite
  /-- The batches. -/
  batches : s.replica.stats.mergedBatches = (batches calls).length
  /-- Each operation that was accepted or received is in the log or was skipped. -/
  operations : s.accepted.length + (Session.batches calls).flatten.length =
    s.replica.log.size + s.replica.stats.duplicatesSkipped

theorem tallies_fresh : (fresh id money active).Tallies [] :=
  ⟨rfl, Nat.le_refl _, rfl, rfl⟩

theorem batches_concat_of_none (hc : c.batch? = none) : batches (calls ++ [c]) = batches calls := by
  rw [batches, List.filterMap_append, List.filterMap_cons_none hc, List.filterMap_nil,
    List.append_nil, batches]

theorem batches_receive {ops : List Operation} :
    batches (calls ++ [.receive ops]) = batches calls ++ [ops] :=
  List.filterMap_append

/-- A call that is answered without a change of log and counters. -/
theorem Tallies.quiet (h : s.Tallies calls) {r : Replica} (hlog : r.log = s.replica.log)
    (hstats : r.stats = s.replica.stats) (hc : c.batch? = none) :
    Tallies ⟨r, s.accepted⟩ (calls ++ [c]) where
  submitted := by
    rw [hstats]
    exact h.submitted
  writes := by
    rw [hstats, List.countP_append]
    exact Nat.le_add_right_of_le h.writes
  batches := by
    rw [hstats, batches_concat_of_none hc]
    exact h.batches
  operations := by
    rw [hstats, hlog, batches_concat_of_none hc]
    exact h.operations

theorem Tallies.refused (h : s.Tallies calls) {kind : Kind} {context : Clock} :
    Tallies ⟨s.replica.refused, s.accepted⟩ (calls ++ [.submit kind context]) where
  submitted := h.submitted
  writes := by
    rw [List.countP_append]
    exact Nat.add_le_add_right h.writes 1
  batches := by
    rw [batches_concat_of_none rfl]
    exact h.batches
  operations := by
    rw [batches_concat_of_none rfl]
    exact h.operations

theorem Tallies.accepted (h : s.Tallies calls) {kind : Kind} {context : Clock} {op : Operation}
    {r : Replica} (hgains : s.replica.Gains op r) :
    Tallies ⟨r, s.accepted ++ [op]⟩ (calls ++ [.submit kind context]) := by
  obtain ⟨applied, -, -, hstats⟩ := hgains.applied
  constructor
  case submitted =>
    rw [hstats, List.length_append, ← h.submitted]
    rfl
  case writes =>
    rw [hstats, List.countP_append, Nat.add_right_comm]
    exact Nat.add_le_add_right h.writes 1
  case batches =>
    rw [hstats, batches_concat_of_none rfl]
    exact h.batches
  case operations =>
    rw [hstats, hgains.size, batches_concat_of_none rfl, List.length_append, Nat.add_right_comm,
      Nat.add_right_comm s.replica.log.size]
    exact congrArg (· + 1) h.operations

theorem Tallies.received (h : s.Tallies calls) {ops : List Operation} {report : Report}
    {r : Replica} (htakes : s.replica.TakesIn ops report r) :
    Tallies ⟨r, s.accepted⟩ (calls ++ [.receive ops]) where
  submitted := by
    rw [htakes.stats]
    exact h.submitted
  writes := by
    rw [htakes.stats, List.countP_append]
    exact h.writes
  batches := by
    rw [htakes.stats, batches_receive, List.length_append, ← h.batches]
    rfl
  operations := by
    have hoperations := h.operations
    have hduplicates := htakes.duplicates
    rw [htakes.stats, htakes.size, batches_receive, List.flatten_append, List.length_append,
      List.flatten_singleton]
    dsimp only
    omega

/-- One more call. -/
theorem Tallies.call (h : s.Tallies calls) (hsettled : s.replica.Settled) (hc : s.call c = .ok t) :
    t.Tallies (calls ++ [c]) := by
  cases c with
  | submit kind context =>
    rw [Session.call] at hc
    split at hc
    · rename_i clock r hs
      cases hc
      cases Replica.submit_cases hs with
      | accepted _ _ hroom hnew => exact h.accepted (Replica.gains_afterWrite hroom hnew)
    · rename_i e r hs
      cases hc
      cases Replica.submit_cases hs with
      | refused _ _ => exact h.refused
      | collided _ _ => exact h.quiet rfl rfl rfl
    · cases hc
  | read account context =>
    cases hc
    exact h.quiet rfl rfl rfl
  | receive ops =>
    cases hc
    exact h.received (Replica.takesIn_receive hsettled)
  | activate =>
    cases hc
    exact h.quiet rfl rfl rfl
  | deactivate =>
    cases hc
    exact h.quiet rfl rfl rfl

theorem exists_run_of_concat (h : s.run (calls ++ [c]) = .ok t) :
    ∃ u, s.run calls = .ok u ∧ u.call c = .ok t := by
  cases hrun : s.run calls with
  | error e =>
    rw [run, List.foldlM_append, show calls.foldlM Session.call s = .error e from hrun] at h
    cases h
  | ok u => exact ⟨u, rfl, (run_concat hrun).symm.trans h⟩

/-- **A replica counts its calls and the operations that they bring.** -/
theorem tallies_of_run (h : (fresh id money active).run calls = .ok s) : s.Tallies calls := by
  induction calls using List.reverseRecOn generalizing s with
  | nil =>
    cases h
    exact tallies_fresh
  | append_singleton calls c ih =>
    obtain ⟨before, hbefore, hc⟩ := exists_run_of_concat h
    exact (ih hbefore).call (sound_of_run hbefore).settled hc

/-- **No counter exceeds the volume of the calls.** -/
theorem counter_le_volume (h : (fresh id money active).run calls = .ok s)
    (hn : n ∈ s.replica.stats.counters) : n ≤ volume calls := by
  have htallies := tallies_of_run h
  have hreplays := (sound_of_run h).replays
  have hwrites := htallies.writes
  have hbatches := htallies.batches
  have hoperations := htallies.operations
  have hsubmitted := htallies.submitted
  have hpromoted := hreplays.promoted
  have hskipped : s.replica.stats.transfersSkipped ≤ s.replica.log.stable.length := by
    rw [hreplays.skipped, ← List.length_map (·.kind)]
    exact Accounts.skippedTransfers_le
  have hcalls : calls.countP Call.isWrite ≤ calls.length := List.countP_le_length
  have hbrought : (batches calls).length ≤ calls.length := List.length_filterMap_le _ _
  rw [Log.size, Log.operations, List.length_append] at hoperations
  simp only [Stats.counters, List.mem_cons, List.not_mem_nil, or_false] at hn
  unfold volume
  omega

end Session

end GossipLedger
