import GossipLedger.Proofs.Fleet.Progress
import Mathlib.Data.Fintype.Pi

/-!
# Replicas with equal logs

Two replicas that know the same operations need not agree.  The one that has accepted a write counts
it at once, even if the write has to wait, and what depends on it is stable there; the other one
counts the write when it becomes stable (`Fleet.leftBehind_disagree`).

This is the only way in which they differ.  They agree exactly if each of them counts all writes of
the other one, and they always agree if nothing waits at one of them
(`Fleet.Reaches.agreeAt_iff`).
-/

namespace GossipLedger

/-- The first log knows the timestamps of all operations of the second one. -/
def Log.Knows (a b : Log) : Prop :=
  ∀ op ∈ b.operations, a.contains op.timestamp = true

instance (a b : Log) : Decidable (a.Knows b) :=
  inferInstanceAs (Decidable (∀ op ∈ b.operations, _ = _))

namespace Fleet

variable {ι κ : Type} {ids : ι → ReplicaId} {f : Fleet ι κ} {i j : ι}

/-- Two replicas know the same operations. -/
def SameLogs (f : Fleet ι κ) (i j : ι) : Prop :=
  (f.replicas i).log.Knows (f.replicas j).log ∧ (f.replicas j).log.Knows (f.replicas i).log

instance : Decidable (f.SameLogs i j) :=
  inferInstanceAs (Decidable (_ ∧ _))

/-- Two replicas have equal clocks and the same stable operations. -/
structure AgreeAt (f : Fleet ι κ) (i j : ι) : Prop where
  /-- The clocks. -/
  agrees : (f.replicas i).clock.agrees (f.replicas j).clock = true
  /-- The stable operations. -/
  same : ∀ op, op ∈ (f.replicas i).log.stable ↔ op ∈ (f.replicas j).log.stable

theorem Coherent.mem_contents_of_knows (h : f.Coherent ids)
    (hknows : (f.replicas i).log.Knows (f.replicas j).log) :
    ∀ x ∈ (f.replicas j).log.contents, x ∈ (f.replicas i).log.contents := by
  intro x hx
  obtain ⟨op, hop, rfl⟩ := Log.mem_contents.1 hx
  exact h.mem_contents ((h.within j).known _ hx) (hknows op hop)

/-- With equal clocks, equal logs have the same stable operations. -/
theorem Coherent.agreeAt (h : f.Coherent ids) (hexact : ∀ i, (f.replicas i).Exact)
    (hsame : f.SameLogs i j)
    (hclock : (f.replicas i).clock.agrees (f.replicas j).clock = true) : f.AgreeAt i j := by
  refine ⟨hclock, fun op => ?_⟩
  have hknown : op.unmarked ∈ (f.replicas i).log.contents ↔
      op.unmarked ∈ (f.replicas j).log.contents :=
    ⟨h.mem_contents_of_knows hsame.2 _, h.mem_contents_of_knows hsame.1 _⟩
  rw [(hexact i).mem_stable_iff_contents, (hexact j).mem_stable_iff_contents, hknown,
    Operation.isReady_congr (Clock.agrees_iff_count.1 hclock)]

/-- A replica counts no more than one that knows as much and counts all of its writes. -/
theorem Coherent.count_le_of_knows (h : f.Coherent ids) (hgrounded : (f.replicas i).Grounded)
    (hknows : (f.replicas j).log.Knows (f.replicas i).log)
    (hown : (f.replicas i).clock.get (ids i) ≤ (f.replicas j).clock.get (ids i))
    (s : ReplicaId) : (f.replicas i).clock.count s ≤ (f.replicas j).clock.count s := by
  refine hgrounded (f.replicas j).clock.count ?_ ?_ s
  · rw [h.id i]
    exact Clock.get_le_iff.1 hown
  · exact fun x hx => (h.within j).settled.closes x (h.mem_contents_of_knows hknows x hx)

variable [DecidableEq ι] [DecidableEq κ]

/-- **Replicas with equal logs agree exactly if each of them counts all writes of the other one.**
They always agree if nothing waits at one of them. -/
theorem Reaches.agreeAt_iff (hids : Function.Injective ids) {money : ι → UInt64}
    {active : ι → Bool} (hf : Reaches Truthful (fresh ids money active) f)
    (hsame : f.SameLogs i j) :
    (f.AgreeAt i j ↔ (f.replicas i).clock.get (ids i) ≤ (f.replicas j).clock.get (ids i) ∧
      (f.replicas j).clock.get (ids j) ≤ (f.replicas i).clock.get (ids j)) ∧
      ((f.replicas i).log.pending = [] → f.AgreeAt i j) := by
  have h := hf.orderly hids
  constructor
  · constructor
    · intro hagree
      have hcount := Clock.agrees_iff_count.1 hagree.agrees
      rw [Clock.get_le_iff, Clock.get_le_iff]
      exact ⟨Nat.le_of_eq (hcount _), Nat.le_of_eq (hcount _).symm⟩
    · rintro ⟨hi, hj⟩
      refine h.coherent.agreeAt h.exact hsame (Clock.agrees_iff_count.2 fun s => ?_)
      exact Nat.le_antisymm (h.coherent.count_le_of_knows (h.grounded i) hsame.2 hi s)
        (h.coherent.count_le_of_knows (h.grounded j) hsame.1 hj s)
  · intro happlied
    have hwithin := h.coherent.within
    have happlied_j : ∀ x ∈ (f.replicas i).log.contents, x.marked ∈ (f.replicas j).log.stable :=
      h.applied_of_subset happlied h.coherent.ranked h.informed.founded List.prefix_rfl
        (hwithin j).settled (h.coherent.mem_contents_of_knows hsame.2)
    have happlied_i : ∀ x ∈ (f.replicas j).log.contents, x.marked ∈ (f.replicas i).log.stable :=
      fun x hx => h.applied_of_subset happlied h.coherent.ranked h.informed.founded
        List.prefix_rfl (hwithin i).settled (fun _ hy => hy) x
          (h.coherent.mem_contents_of_knows hsame.1 x hx)
    refine h.coherent.agreeAt h.exact hsame ?_
    rw [Clock.agrees, Bool.and_eq_true]
    exact ⟨(hwithin j).dominates_of_applied h.coherent.ranked (h.grounded j)
        (hwithin i).settled happlied_i,
      (hwithin i).dominates_of_applied h.coherent.ranked (h.grounded i)
        (hwithin j).settled happlied_j⟩

/-- Two replicas that know the same operations, of which they have accepted one each. -/
theorem exchange_agreeAt :
    Function.Injective pairIds ∧ Reaches Truthful pair (pair.run exchange) ∧
      (pair.run exchange).SameLogs .left .right ∧
      ((pair.run exchange).replicas .left).log.pending = [] ∧
      (pair.run exchange).AgreeAt .left .right := by
  have hhonest : Reaches Honest pair (pair.run exchange) := reaches_run (by decide)
  have hrun : Reaches Truthful pair (pair.run exchange) := hhonest.mono fun _ _ he => he.truthful
  have hsame : (pair.run exchange).SameLogs .left .right := by decide
  have happlied : ((pair.run exchange).replicas .left).log.pending = [] := by decide
  exact ⟨pairIds_injective, hrun, hsame, happlied,
    (hrun.agreeAt_iff pairIds_injective hsame).2 happlied⟩

/-! ### Equal logs without agreement -/

/-- The names of three replicas. -/
def trioIds : Fin 3 → ReplicaId
  | 0 => "A"
  | 1 => "B"
  | 2 => "C"

/-- Three fresh replicas with two clients. -/
def trio : Fleet (Fin 3) Side :=
  fresh trioIds (fun _ => 1000) fun _ => true

/-- A client writes at the second replica and then at the first, where its write has to wait.
Another client asks the first replica for a balance and writes there, which is applied at once.
The third replica receives all that the first one knows. -/
def leftBehind : List (Event (Fin 3) Side) :=
  [.write .left 1 (.create "x") .zero,
    .write .left 0 (.create "y") (Clock.zero.set "B" 1),
    .read .right 0 .broker .zero,
    .write .right 0 (.create "z") (Clock.zero.set "A" 1),
    .post 0,
    .deliver 2 (((Replica.fresh "A" 1000 true).afterWrite (.create "y")
      (Clock.zero.set "B" 1)).afterWrite (.create "z") (Clock.zero.set "A" 1)).snapshot]

theorem leftBehind_disagree :
    Function.Injective trioIds ∧ Reaches Truthful trio (trio.run leftBehind) ∧
      (trio.run leftBehind).SameLogs 0 2 ∧
      ((trio.run leftBehind).replicas 0).clock.agrees
        ((trio.run leftBehind).replicas 2).clock = false ∧
      ((trio.run leftBehind).replicas 0).log.stable.length = 1 ∧
      ((trio.run leftBehind).replicas 2).log.stable = [] := by
  have hhonest : Reaches Honest trio (trio.run leftBehind) := reaches_run (by decide)
  have hrun : Reaches Truthful trio (trio.run leftBehind) :=
    hhonest.mono fun _ _ he => he.truthful
  exact ⟨by decide, hrun, by decide, by decide, by decide, by decide⟩

end Fleet

end GossipLedger
