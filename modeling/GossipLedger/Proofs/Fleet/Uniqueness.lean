import GossipLedger.Proofs.Fleet.Coherence

/-!
# Timestamps tell operations apart

The timestamp of a write counts one more operation of its origin than any clock did before, so no
two accepted operations share one, whatever contexts the clients send and whichever copies are
delivered (`Fleet.Reaches.distinguished`).  A replica therefore never takes a write for a duplicate.

Nor does it lose anything of a batch.  To compare timestamps is to compare operations, so it takes
in the operations that its log does not hold, each of them once (`Log.unknown`,
`Replica.Within.news_eq_unknown`).
-/

namespace GossipLedger

namespace Log

variable {log : Log} {op : Operation} {ops : List Operation}

/-- The operations of a batch that a log does not hold, marked or not, each of them once. -/
def unknown (log : Log) (ops : List Operation) : List Operation :=
  ((ops.map Operation.unmarked).filter (· ∉ log.contents)).eraseDups

theorem unknown_cons_of_mem (h : op.unmarked ∈ log.contents) :
    log.unknown (op :: ops) = log.unknown ops := by
  rw [unknown, List.map_cons, List.filter_cons_of_neg (by simpa using h), unknown]

theorem unknown_cons_of_not_mem (h : op.unmarked ∉ log.contents) :
    log.unknown (op :: ops) = op.unmarked :: (log.await [op.unmarked]).unknown ops := by
  rw [unknown, List.map_cons, List.filter_cons_of_pos (by simpa using h), List.eraseDups_cons,
    List.filter_filter, unknown, contents_await]
  refine congrArg (fun l => op.unmarked :: List.eraseDups l) (List.filter_congr fun q _ => ?_)
  rw [Bool.eq_iff_iff]
  simp [and_comm]

theorem mem_unknown {x : Operation} :
    x ∈ log.unknown ops ↔ (∃ op ∈ ops, op.unmarked = x) ∧ x ∉ log.contents := by
  rw [unknown, List.mem_eraseDups, List.mem_filter, List.mem_map, decide_eq_true_eq]

/-- Where timestamps tell operations apart, a log takes in what it does not hold. -/
theorem news_eq_unknown
    (h : ∀ x ∈ log.contents ++ ops.map Operation.unmarked,
      ∀ y ∈ log.contents ++ ops.map Operation.unmarked,
        x.timestamp.stamp = y.timestamp.stamp → x = y) : log.news ops = log.unknown ops := by
  induction ops generalizing log with
  | nil => rfl
  | cons op rest ih =>
    have hop : op.unmarked ∈ log.contents ++ (op :: rest).map Operation.unmarked := by simp
    cases hknown : log.contains op.timestamp with
    | true =>
      obtain ⟨x, hx, hstamp⟩ := contains_iff.1 hknown
      have hmem : op.unmarked ∈ log.contents :=
        h x (List.mem_append_left _ hx) op.unmarked hop hstamp ▸ hx
      rw [news_cons_of_contains hknown, unknown_cons_of_mem hmem]
      refine ih fun x hx y hy => h x ?_ y ?_
      · rw [List.map_cons, List.mem_append, List.mem_cons]
        exact (List.mem_append.1 hx).imp_right .inr
      · rw [List.map_cons, List.mem_append, List.mem_cons]
        exact (List.mem_append.1 hy).imp_right .inr
    | false =>
      have hnot : op.unmarked ∉ log.contents := by
        intro hmem
        have hcontains : log.contains op.timestamp = true := contains_iff.2 ⟨_, hmem, rfl⟩
        rw [hknown] at hcontains
        cases hcontains
      rw [news_cons_of_not_contains hknown, unknown_cons_of_not_mem hnot]
      refine congrArg _ (ih ?_)
      rw [contents_await, List.append_assoc]
      exact h

end Log

namespace Replica

variable {r : Replica} {accepted ops : List Operation} {kind : Kind} {context : Clock}

/-- The next timestamp of a replica counts an operation that was not accepted yet. -/
theorem Within.not_contains_nextStamp (h : r.Within accepted) (hranked : History Ranked accepted)
    (hstamped : History Stamped accepted) (hroom : r.clock.get r.id ≠ Clock.maxCount) :
    r.log.contains r.nextStamp = false := by
  rw [← Bool.not_eq_true, Log.contains_iff]
  rintro ⟨x, hx, hstamp⟩
  have hcount : x.timestamp.count r.id = r.clock.count r.id + 1 := by
    rw [Clock.stamp_eq_iff.1 hstamp, count_nextStamp_self hroom]
  have hle : x.timestamp.count r.id ≤ countOf r.id accepted :=
    count_timestamp_le hranked hstamped (h.known x hx)
  rw [hcount, h.count_own] at hle
  omega

theorem Within.submit_ne_duplicate (h : r.Within accepted) (hranked : History Ranked accepted)
    (hstamped : History Stamped accepted) (t : Clock) (r' : Replica) :
    r.submit kind context ≠ .ok (.error (.duplicateOperation t), r') := by
  intro hs
  cases submit_cases hs with
  | refused _ he =>
    rcases he with he | he
    · cases he
    · exact Bool.false_ne_true (Accounts.isDomain_of_admission he)
  | collided hroom hknown =>
    rw [h.not_contains_nextStamp hranked hstamped hroom] at hknown
    cases hknown

/-- A replica takes in the copies of operations that it does not hold. -/
theorem Within.news_eq_unknown (h : r.Within accepted) (hranked : History Ranked accepted)
    (hstamped : History Stamped accepted) (hops : ∀ op ∈ ops, op.unmarked ∈ accepted) :
    r.log.news ops = r.log.unknown ops := by
  have haccepted : ∀ x ∈ r.log.contents ++ ops.map Operation.unmarked, x ∈ accepted := by
    intro x hx
    rcases List.mem_append.1 hx with hx | hx
    · exact h.known x hx
    · obtain ⟨op, hop, rfl⟩ := List.mem_map.1 hx
      exact hops op hop
  exact Log.news_eq_unknown fun x hx y hy =>
    eq_of_stamp hranked hstamped (haccepted x hx) (haccepted y hy)

end Replica

namespace Fleet

variable {ι κ : Type} {ids : ι → ReplicaId} {f : Fleet ι κ}

/-- Timestamps tell the operations of a fleet apart. -/
structure Distinguished (ids : ι → ReplicaId) (f : Fleet ι κ) : Prop where
  /-- No two accepted operations agree in their timestamps or share origin and number. -/
  distinct : f.accepted.Pairwise fun x y =>
    x.timestamp.agrees y.timestamp = false ∧ (x.origin, x.sequence) ≠ (y.origin, y.sequence)
  /-- The replica that accepted an operation has it in its log. -/
  logged : ∀ op ∈ f.accepted, ∃ i, ids i = op.origin ∧ op ∈ (f.replicas i).log.contents
  /-- The logs hold accepted operations only. -/
  known : ∀ i, ∀ op ∈ (f.replicas i).log.contents, op ∈ f.accepted
  /-- In whichever logs two operations are, they are the same if they agree in their timestamps or
  share origin and number. -/
  same : ∀ i j, ∀ x ∈ (f.replicas i).log.contents, ∀ y ∈ (f.replicas j).log.contents,
    x.timestamp.agrees y.timestamp = true ∨ (x.origin, x.sequence) = (y.origin, y.sequence) → x = y
  /-- No replica counts more operations of another one than that one itself. -/
  count_le : ∀ i j, (f.replicas i).clock.get (ids j) ≤ (f.replicas j).clock.get (ids j)
  /-- No write is taken for a duplicate. -/
  new : ∀ i kind context t r,
    (f.replicas i).submit kind context ≠ .ok (.error (.duplicateOperation t), r)
  /-- Of a batch of copies, an operation is dropped only if the same operation, marked or not, is
  in the log or stands before it in the batch: the log gets all others. -/
  dropped : ∀ i ops, f.DeliversCopies (.deliver i ops) →
    ((f.replicas i).receive ops).2.log.contents.Perm
      ((f.replicas i).log.contents ++ (f.replicas i).log.unknown ops)
  /-- Hence it holds all that was delivered. -/
  received : ∀ i ops, f.DeliversCopies (.deliver i ops) → ∀ op ∈ ops,
    op.unmarked ∈ ((f.replicas i).receive ops).2.log.contents

theorem Coherent.pairwise_distinct (h : f.Coherent ids) : f.accepted.Pairwise fun x y =>
    x.timestamp.agrees y.timestamp = false ∧ (x.origin, x.sequence) ≠ (y.origin, y.sequence) := by
  refine (pairwise_timestamp h.ranked h.stamped).imp fun {x y} hxy => ⟨?_, ?_⟩
  · rw [← Bool.not_eq_true, Clock.agrees_iff_count]
    exact fun he => absurd (he y.origin) (Nat.ne_of_lt hxy)
  · intro he
    obtain ⟨ho, hs⟩ := Prod.mk.inj he
    have hrank : x.rank = y.rank := by rw [← Operation.toNat_sequence, hs, Operation.toNat_sequence]
    rw [← ho] at hxy
    exact absurd hrank (Nat.ne_of_lt hxy)

theorem Coherent.get_le (h : f.Coherent ids) (i j : ι) :
    (f.replicas i).clock.get (ids j) ≤ (f.replicas j).clock.get (ids j) := by
  have hown := (h.within j).count_own
  rw [h.id j] at hown
  rw [Clock.get_le_iff, hown]
  exact (h.within i).count_le (ids j)

theorem Coherent.eq_of_agrees (h : f.Coherent ids) {x y : Operation} (hx : x ∈ f.accepted)
    (hy : y ∈ f.accepted)
    (hxy : x.timestamp.agrees y.timestamp = true ∨
      (x.origin, x.sequence) = (y.origin, y.sequence)) : x = y := by
  rcases hxy with hagrees | hsame
  · exact eq_of_stamp h.ranked h.stamped hx hy (Clock.stamp_eq_iff_agrees.2 hagrees)
  · obtain ⟨horigin, hsequence⟩ := Prod.mk.inj hsame
    refine eq_of_rank h.ranked hx hy horigin ?_
    rw [← Operation.toNat_sequence, hsequence, Operation.toNat_sequence]

theorem Coherent.perm_receive (h : f.Coherent ids) {i : ι} {ops : List Operation}
    (hrule : f.DeliversCopies (.deliver i ops)) :
    ((f.replicas i).receive ops).2.log.contents.Perm
      ((f.replicas i).log.contents ++ (f.replicas i).log.unknown ops) := by
  rw [← (h.within i).news_eq_unknown h.ranked h.stamped (h.copies hrule)]
  exact Replica.contents_receive (h.within i).settled

/-- Each accepted operation names a replica of the fleet as its origin. -/
def Signed (ids : ι → ReplicaId) (f : Fleet ι κ) : Prop :=
  ∀ op ∈ f.accepted, ∃ i, ids i = op.origin

variable [DecidableEq ι] [DecidableEq κ]

theorem Signed.step (hsigned : f.Signed ids) (h : f.Coherent ids) {e : Event ι κ} :
    (f.step e).Signed ids := by
  have hcase := step_cases f e
  generalize f.step e = g at hcase ⊢
  cases hcase with
  | @accepted k i kind context =>
    intro op hop
    rcases List.mem_append.1 hop with hop | hop
    · exact hsigned op hop
    · obtain rfl := List.mem_singleton.1 hop
      exact ⟨i, (h.id i).symm⟩
  | quiet hfg =>
    rw [Signed, hfg.accepted]
    exact hsigned
  | answered => exact hsigned
  | posted => exact hsigned
  | delivered => exact hsigned

/-- **Origin timestamps are unique.**  Whatever contexts clients send and whichever copies of
operations are delivered, timestamps tell the accepted operations apart, and so they do in all logs;
no write is taken for a duplicate, and nothing that is delivered gets lost. -/
theorem Reaches.distinguished (hids : Function.Injective ids) {money : ι → UInt64}
    {active : ι → Bool} (hf : Reaches DeliversCopies (fresh ids money active) f) :
    f.Distinguished ids := by
  obtain ⟨h, hsigned⟩ := hf.invariant_of_coherent (I := Signed ids) hids (fun _ _ he => he)
    coherent_fresh nofun fun _ _ h hsigned _ => hsigned.step h
  exact {
    distinct := h.pairwise_distinct
    logged := fun op hop => by
      obtain ⟨i, hi⟩ := hsigned op hop
      exact ⟨i, hi, (h.within i).own op hop (hi.symm.trans (h.id i).symm)⟩
    known := fun i => (h.within i).known
    same := fun i j x hx y hy => h.eq_of_agrees ((h.within i).known x hx) ((h.within j).known y hy)
    count_le := h.get_le
    new := fun i _ _ t r => (h.within i).submit_ne_duplicate h.ranked h.stamped t r
    dropped := fun _ _ hrule => h.perm_receive hrule
    received := fun i ops hrule op hop => by
      rw [(h.perm_receive hrule).mem_iff, List.mem_append, Log.mem_unknown]
      by_cases hmem : op.unmarked ∈ (f.replicas i).log.contents
      · exact .inl hmem
      · exact .inr ⟨⟨op, hop, rfl⟩, hmem⟩ }

/-- A write that claims to know of nine others, and a late copy of an earlier one. -/
def lateCopy : List (Event Side Side) :=
  [.write .left .left (.create "x") .zero,
    .post .left,
    .write .left .right (.create "x") (Clock.zero.set "A" 9),
    .post .right,
    .deliver .right [((Replica.fresh "A" 1000 true).draft (.create "x") .zero).marked]]

/-- Two copies of each of the two writes. -/
def twoCopies : List Operation :=
  let x := ((Replica.fresh "A" 1000 true).draft (.create "x") .zero).marked
  let x' := (Replica.fresh "B" 1000 true).draft (.create "x") (Clock.zero.set "A" 9)
  [x, x', x, x']

theorem lateCopy_distinguished :
    Function.Injective pairIds ∧ Reaches DeliversCopies pair (pair.run lateCopy) ∧
      (pair.run lateCopy).accepted.length = 2 ∧ (pair.run lateCopy).Distinguished pairIds ∧
      (pair.run lateCopy).DeliversCopies (.deliver .left twoCopies) ∧
      ((pair.run lateCopy).replicas .left).log.contents.length = 1 ∧
      (((pair.run lateCopy).replicas .left).receive twoCopies).2.log.contents.length = 2 := by
  have hrun : Reaches DeliversCopies pair (pair.run lateCopy) := reaches_run (by decide)
  have h := hrun.distinguished pairIds_injective
  have hcopies : (pair.run lateCopy).DeliversCopies (.deliver .left twoCopies) := by decide
  refine ⟨pairIds_injective, hrun, by decide, h, hcopies, by decide, ?_⟩
  rw [(h.dropped .left twoCopies hcopies).length_eq]
  decide

end Fleet

end GossipLedger
