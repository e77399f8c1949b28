import GossipLedger.Proofs.Fleet.Coherence
import GossipLedger.Proofs.Replica.LeastClock

/-!
# Agreement

With clients that send along what they were told, no operation depends on more than was accepted
before it (`Fleet.Informed`).  Then an operation is ready wherever its causal past is known
(`Replica.Settled.isReady_of_past`): the first operation is ready from the start, and each one makes
later ones ready, whatever the order in which they came.  So a replica that knows all operations has
applied them all (`Replica.Settled.applied`).

Hence all replicas agree as soon as each of them knows every operation (`Fleet.Reaches.agreed`).
-/

namespace GossipLedger

namespace Replica

variable {r : Replica} {l : List Operation} {x : Operation}

/-- **An operation is ready where its causal past is known.** -/
theorem Settled.isReady_of_past (h : r.Settled) (hranked : History Ranked l)
    (hfounded : History Founded l) (hx : x ∈ l) (hpast : ∀ y, x.Past l y → y ∈ r.log.contents) :
    x.isReady r.clock = true := by
  induction hranked generalizing x with
  | nil => cases hx
  | @concat l z hl _ ih =>
    obtain ⟨hfl, hfz⟩ := history_concat.1 hfounded
    have hsub : ∀ y ∈ l, y ∈ l ++ [z] := fun y hy => List.mem_append_left _ hy
    rcases List.mem_append.1 hx with hx | hx
    · exact ih hfl hx fun y hy => hpast y (hy.mono hsub)
    · obtain rfl := List.mem_singleton.1 hx
      refine Operation.isReady_iff.2 fun s => ?_
      rcases Nat.eq_zero_or_pos (x.context.count s) with h0 | hpos
      · rw [h0]
        exact Nat.zero_le _
      · -- the context counts up to an earlier operation, whose past belongs to that of the last one
        obtain ⟨y, hy, rfl, hrank⟩ := exists_rank hl hpos (hfz s)
        have hcovers : x.Past (l ++ [x]) y :=
          .single ⟨hsub y hy, Operation.covers_iff.2 (Nat.le_of_eq hrank)⟩
        have hready : y.isReady r.clock = true :=
          ih hfl hy fun w hw => hpast w (hcovers.trans (hw.mono hsub))
        rw [← hrank]
        exact h.closes y (hpast y hcovers) (Operation.isReady_iff.1 hready)

/-- The clock counts a history that was applied. -/
theorem Settled.countOf_le_count (h : r.Settled) (hranked : History Ranked l)
    (happlied : ∀ x ∈ l, x.marked ∈ r.log.stable) (s : ReplicaId) :
    countOf s l ≤ r.clock.count s := by
  refine countOf_le hranked fun x hx ho => ?_
  rw [← ho]
  exact h.counted x.marked (happlied x hx)

/-- An operation that rests on an applied history does not wait. -/
theorem Settled.not_mem_pending (h : r.Settled) (hranked : History Ranked l)
    (happlied : ∀ x ∈ l, x.marked ∈ r.log.stable) {x : Operation} (hx : Founded l x) :
    x ∉ r.log.pending := by
  intro hp
  have hready : x.isReady r.clock = true := Operation.isReady_iff.2 fun s =>
    Nat.le_trans (hx s) (h.countOf_le_count hranked happlied s)
  rw [h.waiting x hp] at hready
  cases hready

/-- **A settled replica has applied every founded history that it knows.** -/
theorem Settled.applied (h : r.Settled) (hranked : History Ranked l) (hfounded : History Founded l)
    (hknown : ∀ x ∈ l, x ∈ r.log.contents) : ∀ x ∈ l, x.marked ∈ r.log.stable := by
  intro x hx
  refine h.marked_mem_stable (hknown x hx) ?_
  exact h.isReady_of_past hranked hfounded hx fun y hy => hknown y hy.mem

end Replica

namespace Fleet

variable {ι κ : Type} {ids : ι → ReplicaId} {f g : Fleet ι κ}

/-! ### Truthful clients -/

/-- Neither the operations nor the clients know of more operations than there were. -/
structure Informed (f : Fleet ι κ) : Prop where
  /-- Operations depend on operations that were accepted before. -/
  founded : History Founded f.accepted
  /-- Clients were told of operations that were accepted. -/
  told : ∀ k, ∀ c ∈ f.told k, ∀ s, c.count s ≤ countOf s f.accepted

theorem informed_fresh {money : ι → UInt64} {active : ι → Bool} :
    (fresh ids money active : Fleet ι κ).Informed where
  founded := .nil
  told := nofun

/-- No context counts more operations than there are. -/
theorem Informed.count_le_of_recalls (h : f.Informed) {k : κ} {context : Clock}
    (hcontext : ∃ cs, (∀ c ∈ cs, c ∈ f.told k) ∧ context = .joined cs) (s : ReplicaId) :
    context.count s ≤ countOf s f.accepted := by
  obtain ⟨cs, hcs, rfl⟩ := hcontext
  exact Clock.count_joined_le fun c hc => h.told k c (hcs c hc) s

theorem Informed.count_joined_le (h : f.Informed) (k : κ) (s : ReplicaId) :
    (Clock.joined (f.told k)).count s ≤ countOf s f.accepted :=
  h.count_le_of_recalls ⟨f.told k, fun _ hc => hc, rfl⟩ s

theorem Informed.alike (h : f.Informed) (hfg : f.Alike g) : g.Informed where
  founded := hfg.accepted ▸ h.founded
  told := by
    rw [hfg.accepted, hfg.told]
    exact h.told

/-- One more accepted operation, which rests on the earlier ones. -/
theorem Informed.concat (h : f.Informed) {x : Operation} (hx : Founded f.accepted x) :
    ({ f with accepted := f.accepted ++ [x] } : Fleet ι κ).Informed where
  founded := .concat h.founded hx
  told k c hc s := Nat.le_trans (h.told k c hc s) countOf_le_concat

variable [DecidableEq κ]

/-- A client is told the join of what it sent along and what the replica knows. -/
theorem Informed.tell (h : f.Informed) {k : κ} {context c : Clock}
    (hcontext : ∀ s, context.count s ≤ countOf s f.accepted)
    (hc : ∀ s, c.count s ≤ countOf s f.accepted) : (f.tell k (context.merged c)).Informed where
  founded := h.founded
  told := by
    refine (Function.forall_update_iff f.told fun _ cs =>
      ∀ c ∈ cs, ∀ s, c.count s ≤ countOf s f.accepted).2 ⟨fun d hd s => ?_, fun k _ => h.told k⟩
    rcases List.mem_append.1 hd with hd | hd
    · exact h.told k d hd s
    · rw [List.mem_singleton.1 hd, Clock.count_merged]
      exact Nat.max_le.2 ⟨hcontext s, hc s⟩

variable [DecidableEq ι]

theorem Informed.step (hf : f.Coherent ids) (h : f.Informed) {e : Event ι κ}
    (hrule : f.Recalls e) : (f.step e).Informed := by
  have hcase := step_cases f e
  generalize f.step e = g at hcase ⊢
  cases hcase with
  | @accepted k i kind context hroom =>
    -- the operation rests on what its client knows, and the client learns of the operation
    have hcontext : ∀ s, context.count s ≤ countOf s f.accepted := h.count_le_of_recalls hrule
    have hg := h.concat (x := (f.replicas i).draft kind context) hcontext
    have hw : ((f.replicas i).afterWrite kind context).Within _ :=
      (hf.within i).afterWrite hroom hf.ranked
    have ht := hg.tell (k := k) (fun s => Nat.le_trans (hcontext s) countOf_le_concat) hw.count_le
    exact ⟨ht.founded, ht.told⟩
  | quiet hfg => exact h.alike hfg
  | @answered k i account context =>
    exact h.tell (h.count_le_of_recalls hrule) (hf.within i).count_le
  | posted => exact ⟨h.founded, h.told⟩
  | delivered => exact ⟨h.founded, h.told⟩

theorem Informed.reaches_truthful (hids : Function.Injective ids) (hc : f.Coherent ids)
    (h : f.Informed) (hg : Reaches Truthful f g) : g.Coherent ids ∧ g.Informed := by
  exact hg.invariant_of_coherent hids (fun _ _ he => he.2.copies) hc h
    fun f e hf h he => h.step hf he.1

theorem Informed.reaches (hids : Function.Injective ids) (hc : f.Coherent ids) (h : f.Informed)
    (hg : Reaches Honest f g) : g.Coherent ids ∧ g.Informed :=
  h.reaches_truthful hids hc (hg.mono fun _ _ he => he.truthful)

theorem Reaches.informed_truthful (hids : Function.Injective ids) {money : ι → UInt64}
    {active : ι → Bool} (hf : Reaches Truthful (fresh ids money active) f) :
    f.Coherent ids ∧ f.Informed :=
  informed_fresh.reaches_truthful hids coherent_fresh hf

theorem Reaches.informed (hids : Function.Injective ids) {money : ι → UInt64} {active : ι → Bool}
    (hf : Reaches Honest (fresh ids money active) f) : f.Coherent ids ∧ f.Informed :=
  informed_fresh.reaches hids coherent_fresh hf

/-! ### Agreement -/

/-- All replicas have applied all operations. -/
structure Agreed (ids : ι → ReplicaId) (f : Fleet ι κ) : Prop where
  /-- No operation waits. -/
  applied : ∀ i, (f.replicas i).log.pending = []
  /-- All clocks are equal. -/
  agrees : ∀ i j, (f.replicas i).clock.agrees (f.replicas j).clock = true
  /-- The clocks count the writes of each replica. -/
  counted : ∀ i j, ((f.replicas i).clock.get (ids j)).toNat = countOf (ids j) f.accepted
  /-- The same operations are applied everywhere. -/
  same : ∀ i j op, op ∈ (f.replicas i).log.stable ↔ op ∈ (f.replicas j).log.stable

section Complete

omit [DecidableEq ι] [DecidableEq κ]

/-- A replica that knows the timestamps of all operations knows the operations. -/
theorem Coherent.mem_contents (h : f.Coherent ids) {i : ι} {x : Operation} (hx : x ∈ f.accepted)
    (hcontains : (f.replicas i).log.contains x.timestamp = true) :
    x ∈ (f.replicas i).log.contents := by
  obtain ⟨y, hy, hstamp⟩ := Log.contains_iff.1 hcontains
  obtain rfl := eq_of_stamp h.ranked h.stamped ((h.within i).known y hy) hx hstamp
  exact hy

variable (hf : f.Coherent ids) (h : f.Informed)
  (hcomplete : ∀ i, ∀ x ∈ f.accepted, (f.replicas i).log.contains x.timestamp = true)

include hf h hcomplete

theorem Informed.applied (i : ι) : ∀ x ∈ f.accepted, x.marked ∈ (f.replicas i).log.stable :=
  (hf.within i).settled.applied hf.ranked h.founded fun x hx =>
    hf.mem_contents hx (hcomplete i x hx)

theorem Informed.count_eq (i : ι) (s : ReplicaId) :
    (f.replicas i).clock.count s = countOf s f.accepted := by
  refine Nat.le_antisymm ((hf.within i).count_le s) ?_
  exact (hf.within i).settled.countOf_le_count hf.ranked (h.applied hf hcomplete i) s

theorem Informed.pending_eq_nil (i : ι) : (f.replicas i).log.pending = [] := by
  refine List.eq_nil_iff_forall_not_mem.2 fun op hop => ?_
  have hknown : op.unmarked ∈ f.accepted :=
    (hf.within i).known _ (Log.unmarked_mem_contents (List.mem_append_right _ hop))
  have hfounded : Founded f.accepted op := fun s =>
    count_context_le (x := op.unmarked) h.founded hknown
  exact (hf.within i).settled.not_mem_pending hf.ranked (h.applied hf hcomplete i) hfounded hop

theorem Informed.mem_stable_iff (i : ι) {op : Operation} :
    op ∈ (f.replicas i).log.stable ↔ ∃ x ∈ f.accepted, x.marked = op := by
  constructor
  · intro hop
    refine ⟨op.unmarked, ?_, ?_⟩
    · exact (hf.within i).known _ (Log.unmarked_mem_contents (List.mem_append_left _ hop))
    · rw [Operation.marked_unmarked]
      exact Operation.marked_eq_self ((hf.within i).settled.tidy.stable op hop)
  · rintro ⟨x, hx, rfl⟩
    exact h.applied hf hcomplete i x hx

end Complete

/-- **Replicas that know all operations agree.**  Whatever honest clients do and whichever
snapshots are delivered, in whatever order, as soon as each log contains all accepted operations,
nothing waits and all replicas have the same clock and the same stable operations. -/
theorem Reaches.agreed (hids : Function.Injective ids) {money : ι → UInt64} {active : ι → Bool}
    (hf : Reaches Honest (fresh ids money active) f)
    (hcomplete : ∀ i, ∀ x ∈ f.accepted, (f.replicas i).log.contains x.timestamp = true) :
    f.Agreed ids := by
  obtain ⟨hc, h⟩ := hf.informed hids
  refine ⟨h.pending_eq_nil hc hcomplete, fun i j => ?_, fun i j => ?_, fun i j op => ?_⟩
  · rw [Clock.agrees_iff_count]
    intro s
    rw [h.count_eq hc hcomplete i s, h.count_eq hc hcomplete j s]
  · exact h.count_eq hc hcomplete i (ids j)
  · rw [h.mem_stable_iff hc hcomplete i, h.mem_stable_iff hc hcomplete j]

/-- A client writes at two replicas, the second of which has to wait for the first; then they
exchange their snapshots. -/
def exchange : List (Event Side Side) :=
  [.write .left .right (.create "x") .zero,
    .write .left .left (.create "y") (Clock.zero.set "B" 1),
    .post .left,
    .deliver .right
      ((Replica.fresh "A" 1000 true).afterWrite (.create "y") (Clock.zero.set "B" 1)).snapshot,
    .post .right,
    .deliver .left ((((Replica.fresh "B" 1000 true).afterWrite (.create "x") .zero).receive
      ((Replica.fresh "A" 1000 true).afterWrite (.create "y") (Clock.zero.set "B" 1)).snapshot
        ).2).snapshot]

theorem exchange_agreed :
    Function.Injective pairIds ∧ Reaches Honest pair (pair.run exchange) ∧
      (∀ i, ∀ x ∈ (pair.run exchange).accepted,
        ((pair.run exchange).replicas i).log.contains x.timestamp = true) ∧
      (pair.run exchange).accepted.length = 2 ∧ (pair.run exchange).Agreed pairIds := by
  have hrun : Reaches Honest pair (pair.run exchange) := reaches_run (by decide)
  have hcomplete : ∀ i, ∀ x ∈ (pair.run exchange).accepted,
      ((pair.run exchange).replicas i).log.contains x.timestamp = true := by
    intro i
    cases i <;> decide
  exact ⟨pairIds_injective, hrun, hcomplete, by decide, hrun.agreed pairIds_injective hcomplete⟩

end Fleet

end GossipLedger
