import GossipLedger.Proofs.Replica.Bookkeeping
import GossipLedger.Proofs.Replica.Replay

/-!
# A write is all or nothing

A write that is refused, for whatever reason (`Replica.Rejects`), leaves the replica as it was but
for the count of refusals (`Replica.Untouched`).  A write that is accepted adds one operation to the
log and takes none away, and all that changes besides is what the operations lead to that became
stable along with it (`Replica.Gains`).  There is no third way but the one in which the replica's
own count is at its largest value (`Replica.AllOrNothing`, `Replica.submit_atomic`).

Between the clock's increment and the addition to the log a replica is in neither state.  The
addition cannot fail: the timestamp that it looks up is the one that was looked up before.
-/

namespace GossipLedger

/-! ### What several operations lead to -/

namespace Ledger

variable {l : Ledger} {ops : List Operation}

/-- The ledger after several more stable operations. -/
def applyAll (l : Ledger) (ops : List Operation) : Ledger :=
  ops.foldl (fun l op => l.apply op) l

theorem applyAll_cons {op : Operation} : l.applyAll (op :: ops) = (l.apply op).applyAll ops :=
  rfl

theorem accounts_applyAll :
    (l.applyAll ops).accounts = l.accounts.replay (ops.map (·.kind)) := by
  induction ops generalizing l with
  | nil => rfl
  | cons op rest ih =>
    rw [applyAll_cons, ih]
    rfl

/-- Of the statistics, only those of stable operations change. -/
theorem stats_applyAll : (l.applyAll ops).stats =
    { l.stats with
      promoted := l.stats.promoted + ops.length
      transfersSkipped :=
        l.stats.transfersSkipped + l.accounts.skippedTransfers (ops.map (·.kind)) } := by
  induction ops generalizing l with
  | nil => rfl
  | cons op rest ih =>
    rw [applyAll_cons, ih]
    simp only [List.length_cons, List.map_cons, Accounts.skippedTransfers]
    unfold Ledger.apply Accounts.skips
    simp only [Nat.add_assoc, Nat.add_comm 1]

end Ledger

theorem Log.settled_eq_applyAll (log : Log) (l : Ledger) : ∃ applied,
    (log.settled l).1.stable = log.stable ++ applied ∧ (log.settled l).2 = l.applyAll applied ∧
      ∀ x ∈ applied, ∃ op ∈ log.pending, op.marked = x :=
  exists_applied

namespace Replica

variable {r r' : Replica} {kind : Kind} {context : Clock} {op : Operation}

/-! ### Nothing -/

/-- The reasons for which a write is refused. -/
inductive Rejects (r : Replica) (kind : Kind) : LedgerError → Prop where
  /-- Writes are switched off. -/
  | inactive (h : r.active = false) : Rejects r kind .readOnly
  /-- The accounts stand against it. -/
  | inadmissible {e : LedgerError} (hactive : r.active = true)
    (h : r.accounts.admission kind = .error e) : Rejects r kind e
  /-- An operation of the log has the timestamp already. -/
  | duplicate {timestamp : Clock} (hactive : r.active = true)
    (hadmitted : r.accounts.admission kind = .ok ())
    (hincrement : r.clock.increment r.id = .ok timestamp)
    (h : ∃ op ∈ r.log.operations, op.timestamp.agrees timestamp = true) :
    Rejects r kind (.duplicateOperation timestamp)

/-- The second state differs from the first one at most by a higher count of refusals. -/
def Untouched (r r' : Replica) : Prop :=
  ∃ n, r.stats.rejected ≤ n ∧ r' = { r with stats := { r.stats with rejected := n } }

theorem Untouched.refl (r : Replica) : r.Untouched r :=
  ⟨r.stats.rejected, Nat.le_refl _, rfl⟩

theorem untouched_refused (r : Replica) : r.Untouched r.refused :=
  ⟨r.stats.rejected + 1, Nat.le_succ _, rfl⟩

/-! ### All -/

/-- The second state is the first one with one more operation in the log. -/
structure Gains (r : Replica) (op : Operation) (r' : Replica) : Prop where
  /-- The timestamp counts one more operation of the replica. -/
  own : op.timestamp.count r.id = r.clock.count r.id + 1
  /-- It counts those of others as the clock does. -/
  others : ∀ s, s ≠ r.id → op.timestamp.count s = r.clock.count s
  /-- No operation had it. -/
  new : ∀ x ∈ r.log.operations, x.timestamp.agrees op.timestamp = false
  /-- A set of all timestamps takes it in. -/
  inserted : (r.log.seen.insert op.timestamp).1 = true
  /-- The log has the operation, and but for marks is the same besides. -/
  contents : r'.log.contents.Perm (op :: r.log.contents)
  /-- It has grown by one. -/
  size : r'.log.size = r.log.size + 1
  /-- The operation waits, or it has been applied. -/
  held : op ∈ r'.log.pending ∨ op.marked ∈ r'.log.stable
  /-- All others are where they were, or they waited and have been applied. -/
  kept : ∀ x ∈ r.log.operations,
    x ∈ r'.log.operations ∨ x ∈ r.log.pending ∧ x.marked ∈ r'.log.stable
  /-- What has been applied comes last in the stable part, and accounts and statistics are what it
  leads to; one more write is counted. -/
  applied : ∃ applied, r'.log.stable = r.log.stable ++ applied ∧
    r'.accounts = r.accounts.replay (applied.map (·.kind)) ∧
    r'.stats = { r.stats with
      submitted := r.stats.submitted + 1
      promoted := r.stats.promoted + applied.length
      transfersSkipped :=
        r.stats.transfersSkipped + r.accounts.skippedTransfers (applied.map (·.kind)) }
  /-- The name stays. -/
  id : r'.id = r.id
  /-- Writes stay switched on. -/
  active : r'.active = r.active

theorem contents_afterWrite (r : Replica) (kind : Kind) (context : Clock) :
    (r.afterWrite kind context).log.contents.Perm (r.draft kind context :: r.log.contents) := by
  refine Log.contents_settle.trans ?_
  rw [Log.contents_await]
  exact List.perm_append_singleton _ _

/-- The ledger in which the replica has counted its next write, and nothing else has happened. -/
def counting (r : Replica) : Ledger :=
  { r.toLedger with clock := r.nextStamp }

theorem exists_applied_afterWrite (r : Replica) (kind : Kind) (context : Clock) : ∃ applied,
    (r.afterWrite kind context).log.stable = r.log.stable ++ applied ∧
      (r.written kind context).2 = r.counting.applyAll applied := by
  obtain ⟨applied, hstable, hledger, -⟩ :=
    Log.settled_eq_applyAll (r.log.await [r.draft kind context]) r.counting
  exact ⟨applied, hstable, hledger⟩

/-- **An accepted write is one more operation.** -/
theorem gains_afterWrite (hroom : r.clock.get r.id ≠ Clock.maxCount)
    (hnew : r.log.contains r.nextStamp = false) :
    r.Gains (r.draft kind context) (r.afterWrite kind context) where
  own := count_nextStamp_self hroom
  others s hs := count_nextStamp_of_ne hs
  new := by
    intro x hx
    by_contra hagrees
    rw [Bool.not_eq_false] at hagrees
    have hknown : r.log.contains r.nextStamp = true := Log.contains_iff_agrees.2 ⟨x, hx, hagrees⟩
    rw [hnew] at hknown
    cases hknown
  inserted := by
    show (r.log.seen.insert r.nextStamp).1 = true
    simp [Clock.Pool.insert, Log.contains_seen, hnew]
  contents := contents_afterWrite r kind context
  size := by
    have hlength := (contents_afterWrite r kind context).length_eq
    simpa [Log.contents, Log.size] using hlength
  held := Log.mem_pending_or_marked_mem_stable (by simp)
  kept := by
    intro x hx
    obtain ⟨applied, hstable, -⟩ := exists_applied_afterWrite r kind context
    rcases List.mem_append.1 hx with hx | hx
    · left
      simp [Log.operations, hstable, hx]
    · have hawaits : x ∈ (r.log.await [r.draft kind context]).pending := by simp [hx]
      rcases Log.mem_pending_or_marked_mem_stable hawaits with hwaits | happlied
      · exact .inl (List.mem_append_right _ hwaits)
      · exact .inr ⟨hx, happlied⟩
  applied := by
    obtain ⟨applied, hstable, hwritten⟩ := exists_applied_afterWrite r kind context
    refine ⟨applied, hstable, ?_, ?_⟩
    · show (r.written kind context).2.accounts = _
      rw [hwritten, Ledger.accounts_applyAll]
      rfl
    · unfold afterWrite
      simp only [hwritten, Ledger.stats_applyAll]
      rfl
  id := rfl
  active := rfl

/-! ### All or nothing -/

/-- The three ways in which a write can end. -/
def AllOrNothing (r : Replica) (kind : Kind) (context : Clock) :
    Except CounterOverflow (Result Clock × Replica) → Prop
  | .error _ => r.active = true ∧ r.accounts.admission kind = .ok () ∧
      r.clock.get r.id = Clock.maxCount
  | .ok (.error e, r') => r.Rejects kind e ∧ r.Untouched r'
  | .ok (.ok answer, r') => r.active = true ∧ r.accounts.admission kind = .ok () ∧
      answer = context.merged r'.clock ∧
      ∃ op, op.kind = kind ∧ op.origin = r.id ∧ op.context = context ∧
        r.clock.increment r.id = .ok op.timestamp ∧ r.Gains op r'

/-- Whether the clock has been incremented or not, an operation whose timestamp was found to be new
is not refused by the log. -/
theorem exists_insert (h : r.log.contains op.timestamp = false) {l : Ledger} :
    ∃ done, r.log.insert Ledger.clock Ledger.apply op l = .ok done :=
  ⟨_, Log.insert_of_not_contains h⟩

/-- **A write is all or nothing**, on any replica and with any context: either it is refused, and
nothing but the count of refusals changes, or the log gains one operation.  The addition of an
operation with the incremented clock never fails. -/
theorem submit_atomic (r : Replica) (kind : Kind) (context : Clock) :
    r.AllOrNothing kind context (r.submit kind context) ∧
      ∀ timestamp, r.clock.increment r.id = .ok timestamp → r.log.contains timestamp = false →
        ∃ done, r.log.insert Ledger.clock Ledger.apply
          { kind, origin := r.id, context, timestamp } { r.toLedger with clock := timestamp } =
            .ok done := by
  refine ⟨?_, fun timestamp _ hnew => exists_insert hnew⟩
  cases hactive : r.active with
  | false =>
    rw [submit_of_inactive hactive]
    exact ⟨.inactive hactive, r.untouched_refused⟩
  | true =>
    cases hadmitted : r.accounts.admission kind with
    | error e =>
      rw [submit_of_refused hactive hadmitted]
      exact ⟨.inadmissible hactive hadmitted, r.untouched_refused⟩
    | ok =>
      by_cases hroom : r.clock.get r.id = Clock.maxCount
      · rw [submit_of_full hactive hadmitted hroom]
        exact ⟨hactive, hadmitted, hroom⟩
      · cases hnew : r.log.contains r.nextStamp with
        | true =>
          rw [submit_of_contains hactive hadmitted hroom hnew]
          exact ⟨.duplicate hactive hadmitted (Clock.increment_of_ne hroom)
            (Log.contains_iff_agrees.1 hnew), .refl r⟩
        | false =>
          rw [submit_eq_ok hactive hadmitted hroom hnew]
          exact ⟨hactive, hadmitted, rfl, _, rfl, rfl, rfl, Clock.increment_of_ne hroom,
            gains_afterWrite hroom hnew⟩

/-- A replica in which another one's operation waits for its first write. -/
def awaited : Replica :=
  ((fresh "A").receive
    [{ kind := .create "y", origin := "B", context := Clock.zero.set "A" 1,
        timestamp := Clock.zero.set "B" 1 }]).2

/-- Its first write makes two operations stable, but is one operation. -/
theorem awaited_submit_atomic : ∃ answer r',
    awaited.submit (.create "x") .zero = .ok (.ok answer, r') ∧
      r'.log.stable.length = 2 ∧ r'.stats.submitted = 1 ∧ r'.stats.promoted = 2 ∧
      awaited.AllOrNothing (.create "x") .zero (.ok (.ok answer, r')) := by
  have hsubmit : awaited.submit (.create "x") .zero =
      .ok (.ok (Clock.zero.merged (awaited.afterWrite (.create "x") .zero).clock),
        awaited.afterWrite (.create "x") .zero) :=
    submit_eq_ok rfl rfl (by decide) rfl
  obtain ⟨hatomic, -⟩ := submit_atomic awaited (.create "x") .zero
  rw [hsubmit] at hatomic
  exact ⟨_, _, hsubmit, rfl, rfl, rfl, hatomic⟩

end Replica

end GossipLedger
