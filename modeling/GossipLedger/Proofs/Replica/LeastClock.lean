import GossipLedger.Proofs.Replica.Session

/-!
# The clock of a replica is the least one that its log allows

The counts of a replica's clock are closed under its log (`Closes`, `Replica.Settled.closes`): no
operation waits whose context they cover.  They are also the least such counts that the replica's
own writes allow (`Replica.Grounded`), because nothing is counted but these writes and what has
become ready by them.  So the clock depends on the contents of the log and on the number of the
replica's own writes, and not on the order in which operations came.

What is stable follows from the clock: it is what the clock has made ready (`Replica.Exact`).
-/

namespace GossipLedger

variable {op : Operation}

theorem Operation.isReady_of_le {c d : Clock} (h : ∀ r, c.count r ≤ d.count r)
    (hc : op.isReady c = true) : op.isReady d = true :=
  isReady_iff.2 fun r => Nat.le_trans (isReady_iff.1 hc r) (h r)

/-- Settling applies what is ready, and what is ready remains so. -/
theorem Log.ready_settled {log : Log} {l : Ledger}
    (h : ∀ op ∈ log.stable, op.isReady l.clock = true) :
    ∀ op ∈ (log.settled l).1.stable, op.isReady (log.settled l).2.clock = true := by
  refine settle_induction
    (P := fun log (l : Ledger) => ∀ op ∈ log.stable, op.isReady l.clock = true) ?_ h
  intro log l before op after _ _ hready ih q hq
  rcases List.mem_append.1 hq with hq | hq
  · exact Operation.isReady_of_le (fun _ => Ledger.le_count_apply) (ih q hq)
  · rw [List.mem_singleton.1 hq]
    exact Operation.isReady_of_le (fun _ => Ledger.le_count_apply) hready

namespace Replica

variable {r r' : Replica} {ops : List Operation} {kind : Kind} {context : Clock}

/-! ### What is stable -/

/-- In a settled replica nothing that is ready waits. -/
theorem Settled.mem_stable (h : r.Settled) (hop : op ∈ r.log.operations)
    (hready : op.isReady r.clock = true) : op ∈ r.log.stable := by
  refine (List.mem_append.1 hop).resolve_right fun hp => ?_
  rw [h.waiting op hp] at hready
  cases hready

theorem Settled.marked_mem_stable {x : Operation} (h : r.Settled) (hx : x ∈ r.log.contents)
    (hready : x.isReady r.clock = true) : x.marked ∈ r.log.stable := by
  have hor := (h.tidy.mem_contents_iff (Log.stable_of_mem_contents hx)).1 hx
  refine hor.resolve_right fun hp => ?_
  rw [h.waiting x hp] at hready
  cases hready

/-- A settled replica of which everything stable is ready. -/
structure Exact (r : Replica) : Prop extends r.Settled where
  /-- What is stable is ready. -/
  ready : ∀ op ∈ r.log.stable, op.isReady r.clock = true

theorem Exact.mem_stable_iff (h : r.Exact) (hop : op ∈ r.log.operations) :
    op ∈ r.log.stable ↔ op.isReady r.clock = true :=
  ⟨h.ready op, h.mem_stable hop⟩

/-- What is stable is told by the contents of the log and the clock. -/
theorem Exact.mem_stable_iff_contents (h : r.Exact) :
    op ∈ r.log.stable ↔
      op.stable = true ∧ op.unmarked ∈ r.log.contents ∧ op.isReady r.clock = true := by
  constructor
  · intro hop
    exact ⟨h.tidy.stable op hop, Log.unmarked_mem_contents (List.mem_append_left _ hop),
      h.ready op hop⟩
  · rintro ⟨hmarked, hknown, hready⟩
    have hstable : op.unmarked.marked ∈ r.log.stable := h.marked_mem_stable hknown hready
    rwa [Operation.marked_unmarked, Operation.marked_eq_self hmarked] at hstable

theorem Exact.mem_pending_iff (h : r.Exact) (hop : op ∈ r.log.operations) :
    op ∈ r.log.pending ↔ op.isReady r.clock = false := by
  constructor
  · exact h.waiting op
  · intro hwaiting
    refine (List.mem_append.1 hop).resolve_left fun hs => ?_
    rw [h.ready op hs] at hwaiting
    cases hwaiting

theorem exact_fresh {id : ReplicaId} {money : UInt64} {active : Bool} :
    (fresh id money active).Exact where
  toSettled := settled_fresh
  ready := nofun

theorem Exact.congr (h : r.Exact) (hlog : r'.log = r.log) (hclock : r'.clock = r.clock) :
    r'.Exact where
  toSettled := h.toSettled.congr hlog hclock
  ready := by
    rw [hlog, hclock]
    exact h.ready

theorem Exact.afterWrite (h : r.Exact) (hroom : r.clock.get r.id ≠ Clock.maxCount) :
    (r.afterWrite kind context).Exact where
  toSettled := h.toSettled.afterWrite hroom
  ready := Log.ready_settled fun op hop =>
    Operation.isReady_of_le (fun _ => count_le_nextStamp hroom) (h.ready op hop)

theorem Exact.receive (h : r.Exact) : (r.receive ops).2.Exact where
  toSettled := h.toSettled.receive
  ready := by
    rw [log_receive h.toSettled, clock_receive h.toSettled]
    exact Log.ready_settled h.ready

/-! ### Closed counts -/

/-- The clock counts all that it makes ready. -/
theorem Settled.closes (h : r.Settled) : Closes r.clock.count r.log.contents := by
  intro x hx hcontext
  obtain ⟨op, hop, rfl⟩ := Log.mem_contents.1 hx
  exact h.counted op (h.mem_stable hop (Operation.isReady_iff.2 hcontext))

theorem le_count_receive (h : r.Settled) (s : ReplicaId) :
    r.clock.count s ≤ (r.receive ops).2.clock.count s := by
  rw [clock_receive h]
  exact Log.le_count_settled

/-- What is received raises no count above a bound that is closed under the new log. -/
theorem count_receive_le {bound : ReplicaId → Nat} (h : r.Settled)
    (hclock : ∀ s, r.clock.count s ≤ bound s)
    (hcloses : Closes bound (r.receive ops).2.log.contents) (s : ReplicaId) :
    (r.receive ops).2.clock.count s ≤ bound s := by
  rw [clock_receive h]
  refine Log.count_settled_le_of_closes hclock (fun op hop => ?_) s
  have hmem : op.unmarked ∈ (r.receive ops).2.log.contents := by
    rw [log_receive h, Log.mem_contents_settle]
    exact Log.unmarked_mem_contents (List.mem_append_right _ hop)
  exact hcloses op.unmarked hmem

/-! ### Least counts -/

/-- The clock counts the replica's own writes and what they, together with the log, make ready:
it lies below all closed counts that have the replica's own one. -/
def Grounded (r : Replica) : Prop :=
  ∀ bound : ReplicaId → Nat, r.clock.count r.id ≤ bound r.id → Closes bound r.log.contents →
    ∀ s, r.clock.count s ≤ bound s

theorem grounded_fresh {id : ReplicaId} {money : UInt64} {active : Bool} :
    (fresh id money active).Grounded :=
  fun _ _ _ _ => Nat.zero_le _

theorem Grounded.congr (h : r.Grounded) (hid : r'.id = r.id) (hlog : r'.log = r.log)
    (hclock : r'.clock = r.clock) : r'.Grounded := by
  rw [Grounded, hid, hlog, hclock]
  exact h

theorem Grounded.receive (h : r.Grounded) (hs : r.Settled) : (r.receive ops).2.Grounded := by
  intro bound hown hcloses s
  refine count_receive_le hs (h bound ?_ ?_) hcloses s
  · exact Nat.le_trans (le_count_receive hs r.id) hown
  · exact fun x hx => hcloses x ((mem_contents_receive hs).2 (.inl hx))

theorem Grounded.afterWrite (h : r.Grounded) (hroom : r.clock.get r.id ≠ Clock.maxCount) :
    (r.afterWrite kind context).Grounded := by
  intro bound hown hcloses s
  have hold : ∀ s, r.clock.count s ≤ bound s := by
    refine h bound (Nat.le_trans (le_count_afterWrite hroom) hown) fun x hx => ?_
    exact hcloses x (mem_contents_afterWrite.2 (.inl hx))
  refine Log.count_settled_le_of_closes (fun s => ?_) (fun op hop => ?_) s
  · -- the count of the write is the one that the replica has in the end
    by_cases hs : s = r.id
    · subst hs
      exact Nat.le_trans Log.le_count_settled hown
    · exact Nat.le_trans (Nat.le_of_eq (count_nextStamp_of_ne hs)) (hold s)
  · have hmem : op.unmarked ∈ (r.afterWrite kind context).log.contents :=
      Log.mem_contents_settle.2 (Log.unmarked_mem_contents (List.mem_append_right _ hop))
    exact hcloses op.unmarked hmem

end Replica

/-- Every replica that is reached by calls is exact, and its clock is the least possible. -/
theorem Session.exact_of_run {id : ReplicaId} {money : UInt64} {active : Bool}
    {calls : List Call} {s : Session} (h : (fresh id money active).run calls = .ok s) :
    s.replica.Exact ∧ s.replica.Grounded := by
  refine run_invariant (I := fun s => s.replica.Exact ∧ s.replica.Grounded) h
    ⟨Replica.exact_fresh, Replica.grounded_fresh⟩ ?_
  rintro s t ⟨hexact, hgrounded⟩ hcase
  cases hcase with
  | accepted hroom => exact ⟨hexact.afterWrite hroom, hgrounded.afterWrite hroom⟩
  | received => exact ⟨hexact.receive, hgrounded.receive hexact.toSettled⟩
  | quiet hr =>
    exact ⟨hexact.congr hr.log hr.clock, hgrounded.congr hr.id hr.log hr.clock⟩

theorem Replica.Reached.exact {id : ReplicaId} {money : UInt64} {active : Bool} {r : Replica}
    (h : Reached (.fresh id money active) r) : r.Exact ∧ r.Grounded := by
  obtain ⟨calls, accepted, hrun⟩ := h
  exact Session.exact_of_run hrun

end GossipLedger
