import GossipLedger.Proofs.Fleet.CaughtUp

/-!
# No operation is stuck

With clients that send along what they were told, and whole snapshots, an operation is stable
wherever its causal past is known (`Fleet.Orderly.mem_stable`): nothing else can hold it back, in
whatever order it and its past have arrived.

Where nothing waits, the causal past of everything is known.  For the clock of a replica counts only
what the replica knows (`Replica.Within.mem_of_rank_le_count`): its counts are those of operations
in its log, and with an operation a log holds all earlier ones of the same origin
(`Fleet.Unbroken`).  Hence a replica that receives a snapshot of such a replica applies all of it
and counts all that the other one had counted (`Fleet.Reaches.unstuck`).
-/

namespace GossipLedger

/-- Of each origin, the list holds a first part of the accepted operations. -/
def Initial (accepted l : List Operation) : Prop :=
  ∀ y ∈ l, ∀ x ∈ accepted, x.origin = y.origin → x.rank ≤ y.rank → x ∈ l

/-- A new operation has a higher number than those that a list holds. -/
theorem Initial.concat {accepted l : List Operation} {x : Operation} (h : Initial accepted l)
    (hranked : History Ranked accepted) (hl : ∀ y ∈ l, y ∈ accepted) (hx : Ranked accepted x) :
    Initial (accepted ++ [x]) l := by
  intro y hy z hz ho hle
  rcases List.mem_append.1 hz with hz | hz
  · exact h y hy z hz ho hle
  · obtain rfl := List.mem_singleton.1 hz
    have hrank : y.rank ≤ countOf y.origin accepted := rank_le_countOf hranked (hl y hy)
    rw [hx, ho] at hle
    omega

namespace Replica

variable {r : Replica} {accepted ops : List Operation} {kind : Kind} {context : Clock}
  {x : Operation}

section Within

variable (h : r.Within accepted)

include h

theorem Within.initial_afterWrite (hinitial : Initial accepted r.log.contents) :
    Initial (accepted ++ [r.draft kind context]) (r.afterWrite kind context).log.contents := by
  intro y hy x hx ho hle
  rw [mem_contents_afterWrite] at hy ⊢
  rw [List.mem_append, List.mem_singleton] at hx
  refine hx.imp_left fun hx => ?_
  rcases hy with hy | rfl
  · exact hinitial y hy x hx ho hle
  · exact h.own x hx ho

variable (hranked : History Ranked accepted)

section Receive

variable (hstamped : History Stamped accepted) (hops : ∀ op ∈ ops, op.unmarked ∈ accepted)

include hranked hstamped hops

/-- A replica knows what it has received. -/
theorem Within.unmarked_mem_contents_receive :
    ∀ op ∈ ops, op.unmarked ∈ (r.receive ops).2.log.contents := by
  intro op hop
  rw [mem_contents_receive h.settled, ← List.mem_append]
  exact mem_append_news hranked hstamped h.known hops op hop

theorem Within.initial_receive (hinitial : Initial accepted r.log.contents)
    (hops' : Initial accepted (ops.map Operation.unmarked)) :
    Initial accepted (r.receive ops).2.log.contents := by
  intro y hy x hx ho hle
  rcases (mem_contents_receive h.settled).1 hy with hy | hy
  · exact (mem_contents_receive h.settled).2 (.inl (hinitial y hy x hx ho hle))
  · obtain ⟨op, hop, rfl⟩ := Log.mem_of_mem_news hy
    have hmem : x ∈ ops.map Operation.unmarked :=
      hops' _ (List.mem_map_of_mem hop) x hx ho hle
    obtain ⟨q, hq, rfl⟩ := List.mem_map.1 hmem
    exact h.unmarked_mem_contents_receive hranked hstamped hops q hq

end Receive

include hranked

/-- No count exceeds the highest number that the replica knows. -/
theorem Within.count_le_highest (hgrounded : r.Grounded) (s : ReplicaId) :
    r.clock.count s ≤ highest s r.log.contents := by
  refine hgrounded (fun s => highest s r.log.contents) ?_ (fun op hop _ => rank_le_highest hop) s
  rw [h.count_own]
  exact countOf_le hranked fun x hx ho => ho ▸ rank_le_highest (h.own x hx ho)

/-- A replica knows what its clock counts. -/
theorem Within.mem_of_rank_le_count (hgrounded : r.Grounded)
    (hinitial : Initial accepted r.log.contents) (hx : x ∈ accepted)
    (hle : x.rank ≤ r.clock.count x.origin) : x ∈ r.log.contents := by
  have hhighest := h.count_le_highest hranked hgrounded x.origin
  have hpos := rank_pos hranked hx
  obtain ⟨y, hy, ho, hrank⟩ := exists_rank_eq_highest (r := x.origin) (l := r.log.contents)
    (by omega)
  exact hinitial y hy x hx ho.symm (by omega)

/-- A replica that has applied all that another one knows counts as much. -/
theorem Within.dominates_of_applied (hgrounded : r.Grounded) {r' : Replica} (h' : r'.Settled)
    (happlied : ∀ x ∈ r.log.contents, x.marked ∈ r'.log.stable) :
    r'.clock.dominates r.clock = true := by
  rw [Clock.dominates_iff_count]
  intro s
  refine Nat.le_trans (h.count_le_highest hranked hgrounded s) (highest_le fun x hx ho => ?_)
  rw [← ho]
  exact h'.counted x.marked (happlied x hx)

end Within

end Replica

namespace Fleet

variable {ι κ : Type} {ids : ι → ReplicaId} {f g : Fleet ι κ}

/-! ### Logs without gaps -/

/-- Of each origin, every log and every snapshot holds a first part of the operations. -/
structure Unbroken (f : Fleet ι κ) : Prop where
  /-- The logs. -/
  known : ∀ i, Initial f.accepted (f.replicas i).log.contents
  /-- The snapshots. -/
  posted : ∀ snapshot ∈ f.posted, Initial f.accepted (snapshot.map Operation.unmarked)

theorem unbroken_fresh {money : ι → UInt64} {active : ι → Bool} :
    (fresh ids money active : Fleet ι κ).Unbroken where
  known _ := nofun
  posted := nofun

theorem Unbroken.alike (h : f.Unbroken) (hfg : f.Alike g) : g.Unbroken where
  known i := by
    rw [hfg.accepted, hfg.log i]
    exact h.known i
  posted := by
    rw [hfg.accepted, hfg.posted]
    exact h.posted

theorem Unbroken.post (h : f.Unbroken) {i : ι} :
    ({ f with posted := f.posted ++ [(f.replicas i).snapshot] } : Fleet ι κ).Unbroken where
  known := h.known
  posted s hs := by
    rcases List.mem_append.1 hs with hs | hs
    · exact h.posted s hs
    · rw [List.mem_singleton.1 hs]
      exact h.known i

variable [DecidableEq ι]

theorem Unbroken.deliver (hf : f.Coherent ids) (h : f.Unbroken) {i : ι} {ops : List Operation}
    (hops : ops ∈ f.posted) : (f.put i ((f.replicas i).receive ops).2).Unbroken where
  known := (Function.forall_update_iff f.replicas fun _ r => Initial f.accepted r.log.contents).2
    ⟨(hf.within i).initial_receive hf.ranked hf.stamped (hf.posted ops hops) (h.known i)
      (h.posted ops hops), fun j _ => h.known j⟩
  posted := h.posted

variable [DecidableEq κ]

theorem Unbroken.write (hf : f.Coherent ids) (h : f.Unbroken) {k : κ} {i : ι} {kind : Kind}
    {context : Clock}
    (hroom : (f.replicas i).clock.get (f.replicas i).id ≠ Clock.maxCount) :
    (f.afterWrite k i kind context).Unbroken := by
  have hdraft : Ranked f.accepted ((f.replicas i).draft kind context) :=
    (hf.within i).ranked_draft hroom
  refine ⟨?_, fun s hs => ?_⟩
  · refine (Function.forall_update_iff f.replicas fun _ r =>
      Initial (f.accepted ++ [(f.replicas i).draft kind context]) r.log.contents).2 ⟨?_, ?_⟩
    · exact (hf.within i).initial_afterWrite (h.known i)
    · exact fun j _ => (h.known j).concat hf.ranked (hf.within j).known hdraft
  · have hknown : ∀ y ∈ s.map Operation.unmarked, y ∈ f.accepted :=
      List.forall_mem_map.2 (hf.posted s hs)
    exact (h.posted s hs).concat hf.ranked hknown hdraft

theorem Unbroken.step (hf : f.Coherent ids) (h : f.Unbroken) {e : Event ι κ}
    (hrule : f.DeliversWhole e) : (f.step e).Unbroken := by
  have hcase := step_cases f e
  generalize f.step e = g at hcase ⊢
  cases hcase with
  | accepted hroom => exact h.write hf hroom
  | quiet hfg => exact h.alike hfg
  | answered => exact ⟨h.known, h.posted⟩
  | posted => exact h.post
  | delivered => exact h.deliver hf hrule

theorem Reaches.unbroken (hids : Function.Injective ids) {money : ι → UInt64} {active : ι → Bool}
    (hf : Reaches DeliversWhole (fresh ids money active) f) : f.Coherent ids ∧ f.Unbroken :=
  hf.invariant_of_coherent hids (fun _ _ he => he.copies) coherent_fresh unbroken_fresh
    fun _ _ hf h he => h.step hf he

/-- What holds of a fleet whose clients send along what they were told, with whole snapshots. -/
structure Orderly (ids : ι → ReplicaId) (f : Fleet ι κ) : Prop where
  /-- The accepted operations form one history. -/
  coherent : f.Coherent ids
  /-- Operations depend on operations that were accepted before. -/
  informed : f.Informed
  /-- Logs and snapshots have no gaps. -/
  unbroken : f.Unbroken
  /-- What is stable is what is ready. -/
  exact : ∀ i, (f.replicas i).Exact
  /-- The clocks are the least possible. -/
  grounded : ∀ i, (f.replicas i).Grounded

theorem Reaches.orderly (hids : Function.Injective ids) {money : ι → UInt64} {active : ι → Bool}
    (hf : Reaches Truthful (fresh ids money active) f) : f.Orderly ids where
  coherent := (hf.informed_truthful hids).1
  informed := (hf.informed_truthful hids).2
  unbroken := ((hf.mono fun _ _ he => he.2).unbroken hids).2
  exact i := (hf.reached i).exact.1
  grounded i := (hf.reached i).exact.2

/-! ### Progress -/

section Progress

omit [DecidableEq ι] [DecidableEq κ]

variable {i j : ι} {accepted : List Operation} {op x y : Operation} (hf : f.Orderly ids)

include hf

/-- **An operation is stable where its causal past is known.** -/
theorem Orderly.mem_stable (hop : op ∈ (f.replicas i).log.operations)
    (hpast : ∀ x, op.Past f.accepted x → (f.replicas i).log.contains x.timestamp = true) :
    op ∈ (f.replicas i).log.stable := by
  have hwithin := hf.coherent.within i
  have hknown : op.unmarked ∈ f.accepted := hwithin.known _ (Log.unmarked_mem_contents hop)
  have hready : op.unmarked.isReady (f.replicas i).clock = true :=
    hwithin.settled.isReady_of_past hf.coherent.ranked hf.informed.founded hknown fun x hx =>
      hf.coherent.mem_contents hx.mem (hpast x (hx.congr rfl))
  exact hwithin.settled.mem_stable hop hready

section Applied

variable (happlied : (f.replicas i).log.pending = [])

include happlied

/-- Where nothing waits, all is known that is covered by what is known, whatever was accepted
since. -/
theorem Orderly.mem_of_covers (hranked : History Ranked accepted)
    (hgrows : f.accepted <+: accepted) (hy : y ∈ (f.replicas i).log.contents)
    (hx : x ∈ accepted) (hcovers : y.Covers x) : x ∈ (f.replicas i).log.contents := by
  have hwithin := hf.coherent.within i
  rw [Operation.covers_iff] at hcovers
  -- what an operation covers was accepted before it
  have hmem : x ∈ f.accepted := by
    refine mem_of_rank_le hranked hf.coherent.ranked (fun z hz => hgrows.subset hz) hx ?_
    exact Nat.le_trans hcovers (count_context_le hf.informed.founded (hwithin.known y hy))
  -- it is counted here, since the operation that covers it is stable and hence ready
  obtain ⟨op, hop, rfl⟩ := Log.mem_contents.1 hy
  rw [Log.operations, happlied, List.append_nil] at hop
  have hle : x.rank ≤ (f.replicas i).clock.count x.origin :=
    Nat.le_trans hcovers (Operation.isReady_iff.1 ((hf.exact i).ready op hop) x.origin)
  exact hwithin.mem_of_rank_le_count hf.coherent.ranked (hf.grounded i) (hf.unbroken.known i)
    hmem hle

/-- What is known there is applied wherever all of it is known. -/
theorem Orderly.applied_of_subset (hranked : History Ranked accepted)
    (hfounded : History Founded accepted) (hgrows : f.accepted <+: accepted) {r : Replica}
    (hr : r.Settled) (hsub : ∀ x ∈ (f.replicas i).log.contents, x ∈ r.log.contents) :
    ∀ x ∈ (f.replicas i).log.contents, x.marked ∈ r.log.stable := by
  intro x hx
  have hmem : x ∈ accepted := hgrows.subset ((hf.coherent.within i).known x hx)
  refine hr.marked_mem_stable (hsub x hx) ?_
  refine hr.isReady_of_past hranked hfounded hmem fun y hy => hsub y ?_
  exact hy.mem_of_closed hx fun _ hy _ hx hcovers =>
    hf.mem_of_covers happlied hranked hgrows hy hx hcovers

variable (hg : g.Orderly ids) (hgrows : f.accepted <+: g.accepted)

include hg hgrows

/-- A snapshot of such a replica is applied wherever it is received. -/
theorem Orderly.applied_receive : ∀ x ∈ (f.replicas i).log.contents,
    x.marked ∈ ((g.replicas j).receive (f.replicas i).snapshot).2.log.stable := by
  have hops : ∀ op ∈ (f.replicas i).snapshot, op.unmarked ∈ g.accepted := fun op hop =>
    hgrows.subset ((hf.coherent.within i).known _ (Log.unmarked_mem_contents hop))
  refine hf.applied_of_subset happlied hg.coherent.ranked hg.informed.founded hgrows
    (hg.coherent.within j).settled.receive fun x hx => ?_
  obtain ⟨op, hop, rfl⟩ := Log.mem_contents.1 hx
  exact (hg.coherent.within j).unmarked_mem_contents_receive hg.coherent.ranked
    hg.coherent.stamped hops op hop

end Applied

end Progress

/-- **No operation is stuck.**  In every reached state each operation is stable at every replica
that knows its causal past.  In particular, a replica that receives a snapshot of a replica at which
nothing waited has all of it stable, and its clock dominates the clock which that replica had. -/
theorem Reaches.unstuck (hids : Function.Injective ids) {money : ι → UInt64} {active : ι → Bool}
    (hf : Reaches Truthful (fresh ids money active) f) :
    (∀ i, ∀ op ∈ (f.replicas i).log.operations,
      (∀ x, op.Past f.accepted x → (f.replicas i).log.contains x.timestamp = true) →
        op ∈ (f.replicas i).log.stable) ∧
      ∀ i, (f.replicas i).log.pending = [] →
        ∀ g, Reaches Truthful (f.step (.post i)) g → ∀ j,
          let r := ((g.replicas j).receive (f.replicas i).snapshot).2
          (∀ op ∈ (f.replicas i).snapshot, op ∈ r.log.stable) ∧
            r.clock.dominates (f.replicas i).clock = true := by
  have h := hf.orderly hids
  refine ⟨fun i op hop hpast => h.mem_stable hop hpast, fun i happlied g hg j => ?_⟩
  have hpost : Reaches Truthful f (f.step (.post i)) := Reaches.step .refl ⟨trivial, trivial⟩
  have hlater : Reaches Truthful f g := hpost.trans hg
  have hg : g.Orderly ids := (hf.trans hlater).orderly hids
  have hsettled := (h.coherent.within i).settled
  have hreceived := h.applied_receive (j := j) happlied hg hlater.accepted_grows
  refine ⟨fun op hop => ?_, (h.coherent.within i).dominates_of_applied h.coherent.ranked
    (h.grounded i) (hg.coherent.within j).settled.receive hreceived⟩
  have hstable := hreceived op.unmarked (Log.unmarked_mem_contents hop)
  rw [Replica.snapshot, Log.operations, happlied, List.append_nil] at hop
  rwa [Operation.marked_unmarked, Operation.marked_eq_self (hsettled.tidy.stable op hop)] at hstable

/-- A client writes at the second replica and then at the first, where its write waits for the other
one. -/
def ahead : List (Event Side Side) :=
  [.write .left .right (.create "x") .zero,
    .write .left .left (.create "y") (Clock.zero.set "B" 1)]

/-- The operation that waits at first. -/
def awaiting : Operation where
  kind := .create "y"
  origin := "A"
  context := Clock.zero.set "B" 1
  timestamp := Clock.zero.set "A" 1

/-- The first replica receives what its write waits for. -/
def aheadServed : Fleet Side Side :=
  ((pair.run ahead).step (.post .right)).step
    (.deliver .left ((pair.run ahead).replicas .right).snapshot)

theorem ahead_unstuck :
    Function.Injective pairIds ∧ Reaches Truthful pair (pair.run ahead) ∧
      ((pair.run ahead).replicas .left).log.pending = [awaiting] ∧
      ((pair.run ahead).replicas .right).log.pending = [] ∧
      (∀ op ∈ ((pair.run ahead).replicas .right).snapshot,
        op ∈ (aheadServed.replicas .left).log.stable) ∧
      (aheadServed.replicas .left).clock.dominates ((pair.run ahead).replicas .right).clock = true ∧
      Reaches Truthful pair aheadServed ∧
      (∀ x, awaiting.marked.Past aheadServed.accepted x →
        (aheadServed.replicas .left).log.contains x.timestamp = true) ∧
      awaiting.marked ∈ (aheadServed.replicas .left).log.stable := by
  have hhonest : Reaches Honest pair (pair.run ahead) := reaches_run (by decide)
  have hrun : Reaches Truthful pair (pair.run ahead) := hhonest.mono fun _ _ he => he.truthful
  have happlied : ((pair.run ahead).replicas .right).log.pending = [] := by decide
  obtain ⟨hstable, hdominates⟩ :=
    (hrun.unstuck pairIds_injective).2 .right happlied _ .refl .left
  have hposted : Reaches Truthful pair ((pair.run ahead).step (.post .right)) :=
    hrun.step ⟨trivial, trivial⟩
  have hserved : Reaches Truthful pair aheadServed := hposted.step ⟨trivial, by decide⟩
  have hpast : ∀ x, awaiting.marked.Past aheadServed.accepted x →
      (aheadServed.replicas .left).log.contains x.timestamp = true := by
    have hall : ∀ x ∈ aheadServed.accepted,
        (aheadServed.replicas .left).log.contains x.timestamp = true := by decide
    exact fun x hx => hall x hx.mem
  have hop : awaiting.marked ∈ (aheadServed.replicas .left).log.operations := by decide
  exact ⟨pairIds_injective, hrun, by decide, happlied, hstable, hdominates, hserved, hpast,
    (hserved.unstuck pairIds_injective).1 .left _ hop hpast⟩

end Fleet

end GossipLedger
