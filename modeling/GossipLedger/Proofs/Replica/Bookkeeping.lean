import GossipLedger.Proofs.Replica.OneList
import Mathlib.Data.List.Induction
import Mathlib.Data.List.Nodup

/-!
# The books of a replica

Whatever calls a replica has answered, its log is in order (`Replica.Booked`): the marks tell the
two parts of the log apart, no two operations share a timestamp, the log knows the timestamps of its
operations and no others, and no operation waits that is ready.

Timestamps are compared by their counts, so stored zeros tell no two of them apart.  The log looks
a timestamp up among its operations.  It could as well keep a set of all timestamps that came in
(`Log.seen`): such a set grows with each operation that is taken in (`Log.push?_eq_insert`,
`Log.seen_await`), answers as the log does (`Log.contains_seen`) and has one element for each
operation (`Log.Distinct.size_seen`).

The same calls leave the books of a replica in order that stores its log as one list with a boundary
and a set (`FlatLog.Booked`): just the operations below the boundary are marked, and the set that
has come about call by call holds the timestamps of the list and no others.
-/

namespace GossipLedger

/-! ### Sets of timestamps -/

namespace Clock.Sets

variable {τ : Type} {k : Sets τ} {log : Log} {arrived : List Clock}

/-- A set of all timestamps, in whatever order these came in, answers as the log does. -/
theorem Lawful.contains_timestamps (h : k.Lawful) {t : Clock}
    (harrived : arrived.Perm (log.operations.map (·.timestamp))) :
    k.contains (k.fill arrived) t = log.contains t := by
  rw [h.contains_fill_congr (sameClocks_of_perm harrived) (agrees_refl t), Bool.eq_iff_iff,
    h.contains_fill, Log.contains_iff_agrees]
  simp only [List.mem_map, exists_exists_and_eq_and]

/-- A log takes an operation in exactly if the operation's timestamp is new to a set of all
timestamps. -/
theorem Lawful.push?_eq (h : k.Lawful) {op : Operation}
    (harrived : arrived.Perm (log.operations.map (·.timestamp))) :
    log.push? op =
      if (k.insert (k.fill arrived) op.timestamp).1 then some (log.await [op]) else none := by
  rw [h.insert_fst, h.contains_timestamps harrived]
  cases hlog : log.contains op.timestamp with
  | false => exact Log.push?_of_not_contains hlog
  | true => exact Log.push?_of_contains hlog

end Clock.Sets

namespace Log

variable {log : Log} {op : Operation} {ops : List Operation}

/-! ### Timestamps of a log -/

/-- No two operations share a timestamp. -/
def Distinct (log : Log) : Prop :=
  (log.contents.map (·.timestamp.stamp)).Nodup

theorem distinct_iff : log.Distinct ↔
    log.operations.Pairwise fun a b => a.timestamp.agrees b.timestamp = false := by
  rw [Distinct, contents, List.map_map, List.Nodup, List.pairwise_map]
  refine List.Pairwise.iff fun a b => ?_
  rw [← Bool.not_eq_true, ← Clock.stamp_eq_iff_agrees]
  rfl

theorem distinct_empty : empty.Distinct :=
  List.nodup_nil

/-- An operation whose timestamp is not known keeps the timestamps distinct. -/
theorem Distinct.await_singleton (h : log.Distinct) (hnew : log.contains op.timestamp = false) :
    (log.await [op]).Distinct := by
  rw [Distinct, contents_await, List.map_append]
  refine List.nodup_append.2 ⟨h, List.nodup_singleton _, ?_⟩
  intro s hs t ht hst
  obtain ⟨x, hx, rfl⟩ := List.mem_map.1 hs
  obtain rfl := List.mem_singleton.1 ht
  have hknown : log.contains op.timestamp = true := contains_iff.2 ⟨x, hx, hst⟩
  rw [hnew] at hknown
  cases hknown

theorem Distinct.await_news (h : log.Distinct) : (log.await (log.news ops)).Distinct := by
  induction ops generalizing log with
  | nil =>
    rw [news, await_nil]
    exact h
  | cons op rest ih =>
    cases hnew : log.contains op.timestamp with
    | false =>
      have hone : (log.await [op.unmarked]).Distinct := h.await_singleton hnew
      rw [news_cons_of_not_contains hnew]
      have hrest := ih hone
      rwa [await_await] at hrest
    | true =>
      rw [news_cons_of_contains hnew]
      exact ih h

theorem Distinct.settle {σ : Type} {clockOf : σ → Clock} {apply : Operation → σ → σ} {s : σ}
    (h : log.Distinct) : (Log.settle clockOf apply log s).1.Distinct :=
  (contents_settle.map _).nodup_iff.2 h

/-! ### The set of timestamps -/

/-- The set of the timestamps of all operations. -/
def seen (log : Log) : Clock.Pool :=
  .ofList (log.operations.map (·.timestamp))

/-- The set answers as the log does. -/
theorem contains_seen {t : Clock} : log.seen.contains t = log.contains t :=
  Clock.lawful_pools.contains_timestamps (.refl _)

/-- An operation is taken in exactly if its timestamp is new to the set. -/
theorem push?_eq_insert :
    log.push? op = if (log.seen.insert op.timestamp).1 then some (log.await [op]) else none :=
  Clock.lawful_pools.push?_eq (.refl _)

theorem seen_await : (log.await [op]).seen = (log.seen.insert op.timestamp).2 := by
  rw [seen, operations_await, List.map_append, List.map_singleton, Clock.Pool.ofList_concat]
  rfl

/-- With distinct timestamps the set has one element for each operation. -/
theorem Distinct.size_seen (h : log.Distinct) : log.seen.size = log.size := by
  have hstamps : (log.operations.map (·.timestamp.stamp)).Nodup := by
    rwa [Distinct, contents, List.map_map] at h
  rw [seen, size]
  generalize log.operations = l at hstamps ⊢
  induction l using List.reverseRecOn with
  | nil => rfl
  | append_singleton l op ih =>
    rw [List.map_append, List.map_singleton, List.nodup_append] at hstamps
    obtain ⟨hl, -, hne⟩ := hstamps
    have hnew : (Clock.Pool.ofList (l.map (·.timestamp))).contains op.timestamp = false := by
      rw [← Bool.not_eq_true, Clock.Pool.contains_ofList]
      rintro ⟨t, ht, hagrees⟩
      obtain ⟨x, hx, rfl⟩ := List.mem_map.1 ht
      exact hne _ (List.mem_map_of_mem hx) _ (List.mem_singleton_self _)
        (Clock.stamp_eq_iff_agrees.2 hagrees)
    rw [List.map_append, List.map_singleton, Clock.Pool.ofList_concat, Clock.Pool.insert, hnew,
      List.length_append, ← ih hl]
    rfl

end Log

namespace Replica

variable {r r' : Replica} {ops : List Operation} {kind : Kind} {context : Clock}

/-! ### Timestamps of a replica -/

theorem distinct_afterWrite (h : r.log.Distinct) (hnew : r.log.contains r.nextStamp = false) :
    (r.afterWrite kind context).log.Distinct :=
  (h.await_singleton hnew).settle

theorem distinct_receive (hs : r.Settled) (h : r.log.Distinct) :
    (r.receive ops).2.log.Distinct := by
  rw [log_receive hs]
  exact h.await_news.settle

/-! ### Dumps -/

theorem stableCount_dump (h : r.log.Tidy) : r.dump.stableCount = r.log.stable.length := by
  have hstable : r.log.stable.countP (·.stable) = r.log.stable.length :=
    List.countP_eq_length.2 h.stable
  have hpending : r.log.pending.countP (·.stable) = 0 :=
    List.countP_eq_zero.2 fun op hop => by rw [h.pending op hop]; decide
  rw [Dump.stableCount, dump, snapshot, Log.operations, List.countP_append, hstable, hpending,
    Nat.add_zero]

theorem pendingCount_dump (h : r.log.Tidy) : r.dump.pendingCount = r.log.pending.length := by
  rw [Dump.pendingCount, stableCount_dump h, dump, snapshot, Log.operations, List.length_append,
    Nat.add_sub_cancel_left]

/-! ### Books in order -/

/-- The log of the replica is in order. -/
structure Booked (r : Replica) : Prop where
  /-- The stable part is a part of the log. -/
  stable_le : r.log.stable.length ≤ r.log.size
  /-- What is stable is marked. -/
  marked : ∀ op ∈ r.log.stable, op.stable = true
  /-- What is pending is not. -/
  unmarked : ∀ op ∈ r.log.pending, op.stable = false
  /-- A dump counts the stable operations. -/
  stableCount : r.dump.stableCount = r.log.stable.length
  /-- A dump counts the pending operations. -/
  pendingCount : r.dump.pendingCount = r.log.pending.length
  /-- Timestamps tell the operations apart. -/
  distinct : r.log.operations.Pairwise fun a b => a.timestamp.agrees b.timestamp = false
  /-- The log knows the timestamps of its operations. -/
  contains : ∀ t, r.log.contains t = true ↔ ∃ op ∈ r.log.operations, op.timestamp.agrees t = true
  /-- A set of these timestamps answers alike. -/
  seen : ∀ t, r.log.seen.contains t = r.log.contains t
  /-- The set has one element for each operation. -/
  size_seen : r.log.seen.size = r.log.size
  /-- Nothing that is pending is ready. -/
  waiting : ∀ op ∈ r.log.pending, op.isReady r.clock = false

theorem Settled.booked (hs : r.Settled) (h : r.log.Distinct) : r.Booked where
  stable_le := by
    rw [Log.size, Log.operations, List.length_append]
    exact Nat.le_add_right _ _
  marked := hs.tidy.stable
  unmarked := hs.tidy.pending
  stableCount := stableCount_dump hs.tidy
  pendingCount := pendingCount_dump hs.tidy
  distinct := Log.distinct_iff.1 h
  contains _ := Log.contains_iff_agrees
  seen _ := Log.contains_seen
  size_seen := h.size_seen
  waiting := hs.waiting

end Replica

namespace FlatLog

variable {τ : Type} {k : Clock.Sets τ} {flat : FlatLog τ} {r : Replica}

/-- A log that is stored as one list, with a boundary and a set, is in order. -/
structure Booked (k : Clock.Sets τ) (flat : FlatLog τ) (clock : Clock) : Prop where
  /-- The boundary stands in the list or at its end. -/
  boundary_le : flat.boundary ≤ flat.operations.length
  /-- Just the operations below the boundary are marked. -/
  marked : ∀ i (h : i < flat.operations.length),
    flat.operations[i].stable = decide (i < flat.boundary)
  /-- Timestamps tell the operations apart. -/
  distinct : flat.operations.Pairwise fun a b => a.timestamp.agrees b.timestamp = false
  /-- The set holds the timestamps of the operations, and no others. -/
  seen : ∀ t, k.contains flat.seen t = true ↔
    ∃ op ∈ flat.operations, op.timestamp.agrees t = true
  /-- Nothing from the boundary on is ready. -/
  waiting : ∀ op ∈ flat.operations.drop flat.boundary, op.isReady clock = false

theorem Holds.booked (h : flat.Holds k r.log) (hr : r.Booked) : flat.Booked k r.clock where
  boundary_le := by
    rw [h.boundary, h.operations]
    exact hr.stable_le
  marked := by
    rw [h.operations, h.boundary]
    intro i hi
    simp only [Log.operations, List.getElem_append]
    split
    · rename_i hlt
      rw [hr.marked _ (List.getElem_mem hlt), decide_eq_true hlt]
    · rename_i hge
      rw [hr.unmarked _ (List.getElem_mem _), decide_eq_false hge]
  distinct := by
    rw [h.operations]
    exact hr.distinct
  seen t := by
    rw [h.seen, h.operations]
    exact hr.contains t
  waiting := by
    have hpending : flat.operations.drop flat.boundary = r.log.pending := h.toLists.pending
    rw [hpending]
    exact hr.waiting

end FlatLog

namespace Session

variable {id : ReplicaId} {money : UInt64} {active : Bool} {calls : List Call} {s t : Session}

theorem CallCase.distinct (hcase : CallCase s t) (hs : s.replica.Settled)
    (h : s.replica.log.Distinct) : t.replica.log.Distinct := by
  cases hcase with
  | accepted _ _ hnew => exact Replica.distinct_afterWrite h hnew
  | received => exact Replica.distinct_receive hs h
  | quiet hr =>
    rw [hr.log]
    exact h

theorem settled_distinct_of_run (h : (fresh id money active).run calls = .ok s) :
    s.replica.Settled ∧ s.replica.log.Distinct := by
  refine run_invariant (I := fun s => s.replica.Settled ∧ s.replica.log.Distinct) h
    ⟨Replica.settled_fresh, Log.distinct_empty⟩ ?_
  rintro s t ⟨hsettled, hdistinct⟩ hcase
  exact ⟨hcase.settled hsettled, hcase.distinct hsettled hdistinct⟩

/-- **The books of a replica are in order** after any calls that do not count beyond 64 bits, with
arbitrary contexts and arbitrary received operations, marked or not.  So they are if the replica
stores its log as one list, with a boundary and with any set of timestamps. -/
theorem booked_of_run (h : (fresh id money active).run calls = .ok s) :
    s.replica.Booked ∧ ∀ (τ : Type) (k : Clock.Sets τ), k.Lawful → ∃ flat,
      (FlatReplica.fresh k id money active).run k calls = .ok flat ∧
        flat.Keeps k s.replica ∧ flat.log.Booked k flat.clock := by
  obtain ⟨hsettled, hdistinct⟩ := settled_distinct_of_run h
  have hbooked : s.replica.Booked := hsettled.booked hdistinct
  refine ⟨hbooked, fun τ k hk => ?_⟩
  have hstart : (FlatReplica.fresh k id money active).Keeps k (fresh id money active).replica :=
    FlatReplica.keeps_fresh hk
  have hends := hstart.run hk calls
  rw [h] at hends
  obtain ⟨flat, hflat, hkeeps⟩ := hends.exists_of_ok
  refine ⟨flat, hflat, hkeeps, ?_⟩
  rw [show flat.clock = s.replica.clock from congrArg (·.clock) hkeeps.parted]
  exact hkeeps.log.booked hbooked

/-- An operation that comes marked and depends on what nobody has, and another one under the same
timestamp with a stored zero; a write that they keep out, for the timestamp is the one of the
replica's first write; an operation that claims to be its seventh write; and a write that is
accepted as its eighth. -/
def takenStamp : List Call :=
  [.receive
      [{ kind := .create "x", origin := "B", context := Clock.zero.set "C" 1,
          timestamp := Clock.zero.set "A" 1, stable := true },
        { kind := .create "y", origin := "B", context := .zero,
          timestamp := (Clock.zero.set "A" 1).set "B" 0 }],
    .submit (.create "z") .zero,
    .deactivate,
    .receive
      [{ kind := .delete "broker", origin := "A", context := .zero,
          timestamp := Clock.zero.set "A" 7 }],
    .activate,
    .submit (.create "z") .zero]

theorem takenStamp_booked : ∃ s flat, (fresh "A" 1000 true).run takenStamp = .ok s ∧
    s.accepted.length = 1 ∧ s.replica.log.stable.length = 2 ∧ s.replica.log.pending.length = 1 ∧
    s.replica.Booked ∧
    (FlatReplica.fresh Clock.pools "A" 1000 true).run Clock.pools takenStamp = .ok flat ∧
    flat.log.operations.length = 3 ∧ flat.log.boundary = 2 ∧
    flat.log.Booked Clock.pools flat.clock := by
  have hview : ((fresh "A" 1000 true).run takenStamp).map (fun s =>
      (s.accepted.length, s.replica.log.stable.length, s.replica.log.pending.length)) =
        .ok (1, 2, 1) := rfl
  obtain ⟨s, hrun, hview⟩ := exists_of_map_run hview
  simp only [Prod.mk.injEq] at hview
  obtain ⟨haccepted, hstable, hpending⟩ := hview
  obtain ⟨hbooked, hflat⟩ := booked_of_run hrun
  obtain ⟨flat, hflat, hkeeps, hflatBooked⟩ := hflat _ Clock.pools Clock.lawful_pools
  refine ⟨s, flat, hrun, haccepted, hstable, hpending, hbooked, hflat, ?_, ?_, hflatBooked⟩
  · rw [hkeeps.log.operations, Log.operations, List.length_append, hstable, hpending]
  · rw [hkeeps.log.boundary, hstable]

end Session

end GossipLedger
