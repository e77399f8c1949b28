import GossipLedger.Proofs.Replica.Invariant
import GossipLedger.Wire.Reader

/-!
# When a replica runs out of numbers

A write needs the next number of its replica.  There is none if an operation of the replica's name
that is stable, or was accepted, has the last one (`Session.Exhausted`), and then an admitted write
fails as a whole; there is no other way for calls to fail.

The replica's own writes do not lead there: it would take all numbers.  But an operation that is
received may claim the name of the replica and any number, and applying it raises the replica's own
count.  So the numbers last as long as what is received claims no writes that the replica has not
been asked for (`Session.Earned`, `Session.Bounded.run`).
-/

namespace GossipLedger

/-- Settling raises the count of an origin at most to the numbers that wait. -/
theorem Log.count_settled_le_of_origin {log : Log} {l : Ledger} {id : ReplicaId} {n : Nat}
    (hl : l.clock.count id ≤ n) (hlog : ∀ op ∈ log.pending, op.origin = id → op.rank ≤ n) :
    (log.settled l).2.clock.count id ≤ n := by
  suffices h : (∀ op ∈ (log.settled l).1.pending, op.origin = id → op.rank ≤ n) ∧
      (log.settled l).2.clock.count id ≤ n from h.2
  refine settle_induction (P := fun log (l : Ledger) =>
    (∀ op ∈ log.pending, op.origin = id → op.rank ≤ n) ∧ l.clock.count id ≤ n) ?_ ⟨hlog, hl⟩
  rintro log l before op after hlog - - ⟨hops, hl⟩
  refine ⟨fun q hq => hops q (mem_pending_of_promote hlog hq), ?_⟩
  rw [Ledger.count_apply]
  split
  · rename_i ho
    exact Nat.max_le.2 ⟨hl, hops op (by simp [hlog]) ho⟩
  · exact hl

/-! ### What calls ask for -/

namespace Call

/-- One for a write, zero for any other call. -/
def writes : Call → Nat
  | submit _ _ => 1
  | read _ _ => 0
  | receive _ => 0
  | activate => 0
  | deactivate => 0

/-- What is received under the replica's name has no number above `n`. -/
def Earned (id : ReplicaId) (n : Nat) : Call → Prop
  | receive ops => ∀ op ∈ ops, op.origin = id → op.rank ≤ n
  | submit _ _ => True
  | read _ _ => True
  | activate => True
  | deactivate => True

instance {id : ReplicaId} {n : Nat} : (c : Call) → Decidable (c.Earned id n)
  | receive ops => inferInstanceAs (Decidable (∀ op ∈ ops, op.origin = id → op.rank ≤ n))
  | submit _ _ => inferInstanceAs (Decidable True)
  | read _ _ => inferInstanceAs (Decidable True)
  | activate => inferInstanceAs (Decidable True)
  | deactivate => inferInstanceAs (Decidable True)

end Call

namespace Session

variable {id : ReplicaId} {money : UInt64} {active : Bool} {calls : List Call} {s : Session}
  {n : Nat} {c : Call}

/-- The number of writes that clients ask for. -/
def writes : List Call → Nat
  | [] => 0
  | c :: calls => c.writes + writes calls

/-- After `n` writes: what each batch brings under the replica's name has no number above that of
the writes that clients have asked for until then. -/
def Earned (id : ReplicaId) (n : Nat) : List Call → Prop
  | [] => True
  | c :: calls => c.Earned id n ∧ Earned id (n + c.writes) calls

instance decidableEarned {id : ReplicaId} :
    (n : Nat) → (calls : List Call) → Decidable (Earned id n calls)
  | _, [] => inferInstanceAs (Decidable True)
  | n, c :: calls =>
    have : Decidable (Earned id (n + c.writes) calls) := decidableEarned (n + c.writes) calls
    inferInstanceAs (Decidable (c.Earned id n ∧ Earned id (n + c.writes) calls))

/-! ### The last number -/

/-- An operation of the replica's name has the last number. -/
def Exhausted (s : Session) : Prop :=
  ∃ op ∈ s.replica.log.stable ++ s.accepted,
    op.origin = s.replica.id ∧ op.sequence = Clock.maxCount

theorem Sound.exhausted_iff (h : s.Sound id money) :
    s.Exhausted ↔ s.replica.clock.get s.replica.id = Clock.maxCount := by
  have hcount : s.replica.clock.count s.replica.id =
      highest s.replica.id (s.replica.log.stable ++ s.accepted) := by
    rw [h.id_eq]
    exact h.replays.count_own
  rw [Clock.get_eq_maxCount_iff]
  constructor
  · rintro ⟨op, hop, horigin, hsequence⟩
    have hle := rank_le_highest hop
    rw [horigin, ← hcount, ← Operation.toNat_sequence, hsequence] at hle
    exact Nat.le_antisymm Clock.count_le_maxCount hle
  · intro hmax
    rw [hcount] at hmax
    have hpos : 0 < highest s.replica.id (s.replica.log.stable ++ s.accepted) := by
      rw [hmax]
      decide
    obtain ⟨op, hop, horigin, hrank⟩ := exists_rank_eq_highest hpos
    refine ⟨op, hop, horigin, UInt64.toNat_inj.1 ?_⟩
    rw [Operation.toNat_sequence, hrank, hmax]

/-- Calls fail exactly at an admitted write for which there is no number. -/
theorem run_eq_error_iff_exhausted : (fresh id money active).run calls = .error {} ↔
    ∃ before kind context after s, calls = before ++ .submit kind context :: after ∧
      (fresh id money active).run before = .ok s ∧ s.replica.active = true ∧
      s.replica.accounts.admission kind = .ok () ∧ s.Exhausted := by
  rw [run_eq_error_iff]
  constructor
  · rintro ⟨before, c, after, s, rfl, hbefore, hcall⟩
    obtain ⟨kind, context, rfl, hsubmit⟩ := call_eq_error_iff.1 hcall
    obtain ⟨hactive, hadmitted, hfull⟩ := Replica.submit_eq_error_iff.1 hsubmit
    exact ⟨before, kind, context, after, s, rfl, hbefore, hactive, hadmitted,
      (sound_of_run hbefore).exhausted_iff.2 hfull⟩
  · rintro ⟨before, kind, context, after, s, rfl, hbefore, hactive, hadmitted, hexhausted⟩
    have hfull := (sound_of_run hbefore).exhausted_iff.1 hexhausted
    have hsubmit : s.replica.submit kind context = .error {} :=
      Replica.submit_eq_error_iff.2 ⟨hactive, hadmitted, hfull⟩
    exact ⟨before, _, after, s, rfl, hbefore, call_eq_error_iff.2 ⟨kind, context, rfl, hsubmit⟩⟩

end Session

/-! ### Numbers below a bound -/

namespace Replica

variable {id : ReplicaId} {money : UInt64} {active : Bool} {r r' : Replica} {n : Nat} {kind : Kind}
  {context : Clock} {ops : List Operation}

/-- Neither the clock nor the log of the replica has a number of its own above `n`. -/
structure Bounded (r : Replica) (id : ReplicaId) (n : Nat) : Prop where
  /-- The name of the replica. -/
  id_eq : r.id = id
  /-- Marks, clock and waiting operations are in order. -/
  settled : r.Settled
  /-- The clock. -/
  count_le : r.clock.count id ≤ n
  /-- The log. -/
  rank_le : ∀ x ∈ r.log.contents, x.origin = id → x.rank ≤ n

theorem bounded_fresh : (fresh id money active).Bounded id 0 where
  id_eq := rfl
  settled := settled_fresh
  count_le := Nat.le_refl _
  rank_le := nofun

theorem Bounded.mono (h : r.Bounded id n) {m : Nat} (hle : n ≤ m) : r.Bounded id m where
  id_eq := h.id_eq
  settled := h.settled
  count_le := Nat.le_trans h.count_le hle
  rank_le x hx ho := Nat.le_trans (h.rank_le x hx ho) hle

theorem Bounded.congr (h : r.Bounded id n) (hr : r.Alike r') : r'.Bounded id n where
  id_eq := hr.id.trans h.id_eq
  settled := h.settled.congr hr.log hr.clock
  count_le := by
    rw [hr.clock]
    exact h.count_le
  rank_le := by
    rw [hr.log]
    exact h.rank_le

theorem Bounded.rank_le_of_mem_pending (h : r.Bounded id n) {op : Operation}
    (hop : op ∈ r.log.pending) (ho : op.origin = id) : op.rank ≤ n :=
  h.rank_le op.unmarked (Log.unmarked_mem_contents (List.mem_append_right _ hop)) ho

/-- A write takes the next number. -/
theorem Bounded.afterWrite (h : r.Bounded id n) (hroom : r.clock.get r.id ≠ Clock.maxCount) :
    (r.afterWrite kind context).Bounded id (n + 1) := by
  have hdraft : (r.draft kind context).rank ≤ n + 1 := by
    rw [rank_draft hroom, h.id_eq]
    exact Nat.succ_le_succ h.count_le
  have hstamp : r.nextStamp.count id ≤ n + 1 := by
    rw [← h.id_eq]
    exact hdraft
  refine ⟨h.id_eq, h.settled.afterWrite hroom, ?_, ?_⟩
  · refine Log.count_settled_le_of_origin hstamp ?_
    intro op hop ho
    rcases List.mem_append.1 hop with hop | hop
    · exact Nat.le_succ_of_le (h.rank_le_of_mem_pending hop ho)
    · rw [List.mem_singleton.1 hop]
      exact hdraft
  · intro x hx ho
    rcases mem_contents_afterWrite.1 hx with hx | rfl
    · exact Nat.le_succ_of_le (h.rank_le x hx ho)
    · exact hdraft

/-- What claims no number above the bound may be received. -/
theorem Bounded.receive (h : r.Bounded id n) (hops : ∀ op ∈ ops, op.origin = id → op.rank ≤ n) :
    (r.receive ops).2.Bounded id n where
  id_eq := h.id_eq
  settled := h.settled.receive
  count_le := by
    rw [clock_receive h.settled]
    refine Log.count_settled_le_of_origin h.count_le ?_
    intro op hop ho
    rcases List.mem_append.1 hop with hop | hop
    · exact h.rank_le_of_mem_pending hop ho
    · obtain ⟨q, hq, rfl⟩ := Log.mem_of_mem_news hop
      exact hops q hq ho
  rank_le := by
    intro x hx ho
    rcases (mem_contents_receive h.settled).1 hx with hx | hx
    · exact h.rank_le x hx ho
    · obtain ⟨q, hq, rfl⟩ := Log.mem_of_mem_news hx
      exact hops q hq ho

end Replica

namespace Session

variable {id : ReplicaId} {money : UInt64} {active : Bool} {calls : List Call} {s : Session}
  {n : Nat} {c : Call}

/-- As long as there is a next number, a call whose batch is earned does not fail. -/
theorem exists_call (h : s.replica.Bounded id n) (hearned : c.Earned id n)
    (hroom : n + c.writes ≤ Clock.maxCount.toNat) :
    ∃ t, s.call c = .ok t ∧ t.replica.Bounded id (n + c.writes) := by
  cases c with
  | submit kind context =>
    have hfree : s.replica.clock.get s.replica.id ≠ Clock.maxCount := by
      refine Clock.get_ne_maxCount ?_
      rw [h.id_eq]
      exact Nat.lt_of_le_of_lt h.count_le hroom
    rcases hsubmit : s.replica.submit kind context with e | ⟨e | clock, r⟩
    · obtain ⟨-, -, hfull⟩ := Replica.submit_eq_error_iff.1 hsubmit
      exact absurd hfull hfree
    · refine ⟨⟨r, s.accepted⟩, by rw [call, hsubmit], ?_⟩
      cases Replica.submit_cases hsubmit with
      | refused _ _ => exact (h.congr (Replica.alike_refused _)).mono (Nat.le_succ n)
      | collided _ _ => exact h.mono (Nat.le_succ n)
    · refine ⟨⟨r, _⟩, by rw [call, hsubmit], ?_⟩
      cases Replica.submit_cases hsubmit with
      | accepted _ _ hfree' _ => exact h.afterWrite hfree'
  | read account context => exact ⟨s, rfl, h⟩
  | receive ops => exact ⟨_, rfl, h.receive hearned⟩
  | activate => exact ⟨_, rfl, h.congr (Replica.alike_activate _)⟩
  | deactivate => exact ⟨_, rfl, h.congr (Replica.alike_deactivate _)⟩

theorem exists_run (h : s.replica.Bounded id n) (hearned : Earned id n calls)
    (hroom : n + writes calls ≤ Clock.maxCount.toNat) :
    ∃ t, s.run calls = .ok t ∧ t.replica.Bounded id (n + writes calls) := by
  induction calls generalizing s n with
  | nil => exact ⟨s, run_nil, h⟩
  | cons c calls ih =>
    have hsum : n + writes (c :: calls) = n + c.writes + writes calls := by
      simp [writes, Nat.add_assoc]
    rw [hsum] at hroom ⊢
    obtain ⟨t, hcall, ht⟩ := exists_call h hearned.1 (by omega)
    obtain ⟨u, hrun, hu⟩ := ih ht hearned.2 hroom
    refine ⟨u, ?_, hu⟩
    rw [run_cons, hcall]
    exact hrun

/-- **A replica runs out of numbers exactly where an operation of its name has the last one**, and
not at all if it receives no more operations of its name than it has been asked for.  In the first
part calls are arbitrary, and so is what is received. -/
theorem overflow_iff_exhausted (id : ReplicaId) (money : UInt64) (active : Bool)
    (calls : List Call) :
    ((fresh id money active).run calls = .error {} ↔
      ∃ before kind context after s, calls = before ++ .submit kind context :: after ∧
        (fresh id money active).run before = .ok s ∧ s.replica.active = true ∧
        s.replica.accounts.admission kind = .ok () ∧ s.Exhausted) ∧
      (writes calls ≤ Clock.maxCount.toNat → Earned id 0 calls →
        ∃ s, (fresh id money active).run calls = .ok s) := by
  refine ⟨run_eq_error_iff_exhausted, fun hwrites hearned => ?_⟩
  obtain ⟨s, hrun, -⟩ := exists_run (s := fresh id money active) Replica.bounded_fresh hearned
    (by omega)
  exact ⟨s, hrun⟩

/-- Two writes; between them the first one comes back, with an operation that depends on it. -/
def echoedWrites : List Call :=
  [.submit (.create "x") .zero,
    .receive
      [{ kind := .create "x", origin := "A", context := .zero,
          timestamp := Clock.zero.set "A" 1, stable := true },
        { kind := .transfer "broker" "x" 5, origin := "B", context := Clock.zero.set "A" 1,
          timestamp := (Clock.zero.set "A" 1).set "B" 1 }],
    .submit (.create "y") (Clock.zero.set "B" 1)]

theorem echoedWrites_run : writes echoedWrites = 2 ∧ Earned "A" 0 echoedWrites ∧
    ∃ s, (fresh "A" 1000 true).run echoedWrites = .ok s := by
  have hwrites : writes echoedWrites = 2 := rfl
  have hroom : writes echoedWrites ≤ Clock.maxCount.toNat := by
    rw [hwrites]
    decide
  have hearned : Earned "A" 0 echoedWrites := by decide
  exact ⟨hwrites, hearned, (overflow_iff_exhausted "A" 1000 true echoedWrites).2 hroom hearned⟩

/-- An operation that claims the last number of a replica. -/
def lastNumber : Operation :=
  { kind := .create "y", origin := "A", context := .zero,
    timestamp := Clock.zero.set "A" Clock.maxCount }

/-- It can be sent, and a replica that has received it fails at the first write that it would
accept. -/
theorem lastNumber_overflows :
    (∃ bytes, lastNumber.encode = .ok bytes ∧ Operation.decode bytes = .ok lastNumber) ∧
      writes [.receive [lastNumber], .submit (.create "x") .zero] = 1 ∧
      (fresh "A" 1000 true).run [.receive [lastNumber], .submit (.create "x") .zero] =
        .error {} :=
  ⟨⟨_, rfl, rfl⟩, rfl, rfl⟩

end Session

end GossipLedger
