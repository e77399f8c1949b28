import GossipLedger.Proofs.Fleet.History
import GossipLedger.Proofs.Fleet.Run

/-!
# Coherent fleets

The accepted operations of a fleet form one history, and each replica lives within it
(`Replica.Within`): it knows only accepted operations, it knows all of its own, its clock counts at
most what was accepted, and it counts all of its own writes, also those that wait.

`Fleet.Coherent` says this of all replicas and snapshots, and that the history is ranked and
stamped.  It holds of every fleet that is reached with arbitrary contexts and with deliveries of
arbitrary copies (`Fleet.Reaches.coherent`), because a write is counted by its replica before any
other replica can hear of it.
-/

namespace GossipLedger

namespace Replica

variable {r r' : Replica} {accepted ops : List Operation} {kind : Kind} {context : Clock}
  {x : Operation}

/-- The replica lives within a history: it knows a part of it that contains its own writes. -/
structure Within (r : Replica) (accepted : List Operation) : Prop where
  /-- The replica is settled. -/
  settled : r.Settled
  /-- Only accepted operations are known. -/
  known : ∀ x ∈ r.log.contents, x ∈ accepted
  /-- All of the replica's own operations are known. -/
  own : ∀ x ∈ accepted, x.origin = r.id → x ∈ r.log.contents
  /-- The clock counts at most what was accepted. -/
  count_le : ∀ s, r.clock.count s ≤ countOf s accepted
  /-- The replica counts all of its own writes. -/
  le_count_own : countOf r.id accepted ≤ r.clock.count r.id

theorem Within.count_own (h : r.Within accepted) : r.clock.count r.id = countOf r.id accepted :=
  Nat.le_antisymm (h.count_le _) h.le_count_own

theorem Within.congr (h : r.Within accepted) (hid : r'.id = r.id) (hlog : r'.log = r.log)
    (hclock : r'.clock = r.clock) : r'.Within accepted where
  settled := h.settled.congr hlog hclock
  known := hlog ▸ h.known
  own := by
    rw [hid, hlog]
    exact h.own
  count_le := hclock ▸ h.count_le
  le_count_own := by
    rw [hid, hclock]
    exact h.le_count_own

theorem within_fresh {id : ReplicaId} {money : UInt64} {active : Bool} :
    (fresh id money active).Within [] where
  settled := settled_fresh
  known := nofun
  own := nofun
  count_le _ := Nat.le_refl _
  le_count_own := Nat.le_refl _

/-- The write of another replica changes nothing. -/
theorem Within.concat (h : r.Within accepted) (hx : x.origin ≠ r.id) :
    r.Within (accepted ++ [x]) where
  settled := h.settled
  known y hy := List.mem_append_left _ (h.known y hy)
  own y hy ho := by
    rcases List.mem_append.1 hy with hy | hy
    · exact h.own y hy ho
    · rw [List.mem_singleton.1 hy] at ho
      exact absurd ho hx
  count_le s := Nat.le_trans (h.count_le s) countOf_le_concat
  le_count_own := by
    rw [countOf_concat, if_neg hx]
    exact h.le_count_own

theorem Within.rank_le (h : r.Within accepted) (hranked : History Ranked accepted)
    {op : Operation} (hop : op ∈ r.log.operations) : op.rank ≤ countOf op.origin accepted :=
  rank_le_countOf (x := op.unmarked) hranked (h.known _ (Log.unmarked_mem_contents hop))

section Write

variable (h : r.Within accepted) (hroom : r.clock.get r.id ≠ Clock.maxCount)

include h hroom

theorem Within.ranked_draft : Ranked accepted (r.draft kind context) := by
  rw [Ranked, rank_draft hroom, h.count_own]
  rfl

omit hroom in
theorem Within.stamped_draft : Stamped accepted (r.draft kind context) := by
  intro s hs
  rw [show (r.draft kind context).timestamp = r.nextStamp from rfl, count_nextStamp_of_ne hs]
  exact h.count_le s

theorem Within.count_nextStamp_le (s : ReplicaId) :
    r.nextStamp.count s ≤ countOf s (accepted ++ [r.draft kind context]) := by
  by_cases hs : s = r.id
  · rw [hs, count_nextStamp_self hroom, h.count_own]
    exact Nat.le_of_eq (countOf_concat_self (x := r.draft kind context)).symm
  · rw [count_nextStamp_of_ne hs]
    exact Nat.le_trans (h.count_le s) countOf_le_concat

/-- The replica counts its own write. -/
theorem Within.afterWrite (hranked : History Ranked accepted) :
    (r.afterWrite kind context).Within (accepted ++ [r.draft kind context]) where
  settled := h.settled.afterWrite hroom
  known y hy := by
    rw [List.mem_append, List.mem_singleton]
    exact (mem_contents_afterWrite.1 hy).imp_left (h.known y)
  own y hy ho := by
    rw [List.mem_append, List.mem_singleton] at hy
    exact mem_contents_afterWrite.2 (hy.imp_left fun hy => h.own y hy ho)
  count_le := by
    refine Log.count_settled_le (h.count_nextStamp_le hroom) fun op hop => ?_
    rcases List.mem_append.1 hop with hop | hop
    · exact Nat.le_trans (h.rank_le hranked (List.mem_append_right _ hop)) countOf_le_concat
    · rw [List.mem_singleton.1 hop, h.ranked_draft hroom]
      exact Nat.le_of_eq countOf_concat_self.symm
  le_count_own := by
    refine Nat.le_trans ?_ Log.le_count_settled
    rw [id_afterWrite, show r.id = (r.draft kind context).origin from rfl, countOf_concat_self]
    refine Nat.le_trans ?_ (Nat.le_of_eq (count_nextStamp_self hroom).symm)
    exact Nat.succ_le_succ h.le_count_own

theorem Within.count_afterWrite_self (hranked : History Ranked accepted) :
    (r.afterWrite kind context).clock.count r.id = r.clock.count r.id + 1 := by
  have hw : (r.afterWrite kind context).clock.count r.id =
      countOf r.id (accepted ++ [r.draft kind context]) :=
    (h.afterWrite hroom hranked).count_own
  rw [hw, h.count_own]
  exact countOf_concat_self (x := r.draft kind context)

end Write

/-- The replica takes in accepted operations. -/
theorem Within.receive (h : r.Within accepted) (hranked : History Ranked accepted)
    (hops : ∀ op ∈ ops, op.unmarked ∈ accepted) : (r.receive ops).2.Within accepted where
  settled := h.settled.receive
  known x hx := by
    rw [mem_contents_receive h.settled, ← List.mem_append] at hx
    exact Log.mem_of_mem_append_news h.known hops x hx
  own x hx ho := (mem_contents_receive h.settled).2 (.inl (h.own x hx ho))
  count_le s := by
    rw [clock_receive h.settled]
    refine Log.count_settled_le h.count_le (fun op hop => ?_) s
    rcases List.mem_append.1 hop with hop | hop
    · exact h.rank_le hranked (List.mem_append_right _ hop)
    · obtain ⟨q, hq, rfl⟩ := Log.mem_of_mem_news hop
      exact rank_le_countOf hranked (hops q hq)
  le_count_own := by
    rw [clock_receive h.settled]
    exact Nat.le_trans h.le_count_own Log.le_count_settled

end Replica

namespace Fleet

variable {ι κ : Type} {ids : ι → ReplicaId} {f g : Fleet ι κ}

/-- The accepted operations form one history, within which all replicas live. -/
structure Coherent (ids : ι → ReplicaId) (f : Fleet ι κ) : Prop where
  /-- The replicas keep their names. -/
  id : ∀ i, (f.replicas i).id = ids i
  /-- The replicas live within the history. -/
  within : ∀ i, (f.replicas i).Within f.accepted
  /-- The origins number their operations. -/
  ranked : History Ranked f.accepted
  /-- Timestamps count what was there before. -/
  stamped : History Stamped f.accepted
  /-- The history is kept without marks. -/
  unmarked : ∀ x ∈ f.accepted, x.stable = false
  /-- Only accepted operations travel. -/
  posted : ∀ snapshot ∈ f.posted, ∀ op ∈ snapshot, op.unmarked ∈ f.accepted

theorem coherent_fresh {money : ι → UInt64} {active : ι → Bool} :
    (fresh ids money active : Fleet ι κ).Coherent ids where
  id _ := rfl
  within _ := Replica.within_fresh
  ranked := .nil
  stamped := .nil
  unmarked := nofun
  posted := nofun

theorem Coherent.alike (h : f.Coherent ids) (hfg : f.Alike g) : g.Coherent ids where
  id i := (hfg.id i).trans (h.id i)
  within i := by
    rw [hfg.accepted]
    exact (h.within i).congr (hfg.id i) (hfg.log i) (hfg.clock i)
  ranked := hfg.accepted ▸ h.ranked
  stamped := hfg.accepted ▸ h.stamped
  unmarked := hfg.accepted ▸ h.unmarked
  posted := by
    rw [hfg.accepted, hfg.posted]
    exact h.posted

theorem Coherent.post (h : f.Coherent ids) {i : ι} :
    ({ f with posted := f.posted ++ [(f.replicas i).snapshot] } : Fleet ι κ).Coherent ids where
  id := h.id
  within := h.within
  ranked := h.ranked
  stamped := h.stamped
  unmarked := h.unmarked
  posted s hs op hop := by
    rcases List.mem_append.1 hs with hs | hs
    · exact h.posted s hs op hop
    · rw [List.mem_singleton.1 hs] at hop
      exact (h.within i).known _ (Log.unmarked_mem_contents hop)

theorem Coherent.copies (h : f.Coherent ids) {i : ι} {ops : List Operation}
    (hrule : f.DeliversCopies (.deliver i ops : Event ι κ)) :
    ∀ op ∈ ops, op.unmarked ∈ f.accepted := by
  intro op hop
  obtain ⟨s, hs, hop⟩ := hrule op hop
  exact h.posted s hs op hop

section Step

variable [DecidableEq ι]

theorem Coherent.deliver (h : f.Coherent ids) {i : ι} {ops : List Operation}
    (hops : ∀ op ∈ ops, op.unmarked ∈ f.accepted) :
    (f.put i ((f.replicas i).receive ops).2).Coherent ids where
  id := (Function.forall_update_iff f.replicas fun j r => r.id = ids j).2
    ⟨h.id i, fun j _ => h.id j⟩
  within := (Function.forall_update_iff f.replicas fun _ r => r.Within f.accepted).2
    ⟨(h.within i).receive h.ranked hops, fun j _ => h.within j⟩
  ranked := h.ranked
  stamped := h.stamped
  unmarked := h.unmarked
  posted := h.posted

variable [DecidableEq κ]

theorem Coherent.write (hids : Function.Injective ids) (h : f.Coherent ids) {k : κ} {i : ι}
    {kind : Kind} {context : Clock}
    (hroom : (f.replicas i).clock.get (f.replicas i).id ≠ Clock.maxCount) :
    (f.afterWrite k i kind context).Coherent ids where
  id := (Function.forall_update_iff f.replicas fun j r => r.id = ids j).2
    ⟨h.id i, fun j _ => h.id j⟩
  within := by
    refine (Function.forall_update_iff f.replicas fun _ r =>
      r.Within (f.accepted ++ [(f.replicas i).draft kind context])).2
        ⟨(h.within i).afterWrite hroom h.ranked, fun j hj => (h.within j).concat ?_⟩
    -- the other replicas have other names
    rw [h.id j]
    exact fun ho => hj (hids ((h.id i).symm.trans ho)).symm
  ranked := .concat h.ranked ((h.within i).ranked_draft hroom)
  stamped := .concat h.stamped (h.within i).stamped_draft
  unmarked x hx := by
    rcases List.mem_append.1 hx with hx | hx
    · exact h.unmarked x hx
    · rw [List.mem_singleton.1 hx]
      rfl
  posted s hs op hop := List.mem_append_left _ (h.posted s hs op hop)

theorem Coherent.step (hids : Function.Injective ids) (h : f.Coherent ids) {e : Event ι κ}
    (hrule : f.DeliversCopies e) : (f.step e).Coherent ids := by
  have hcase := step_cases f e
  generalize f.step e = g at hcase ⊢
  cases hcase with
  | accepted hroom => exact h.write hids hroom
  | quiet hfg => exact h.alike hfg
  | answered => exact ⟨h.id, h.within, h.ranked, h.stamped, h.unmarked, h.posted⟩
  | posted => exact h.post
  | delivered => exact h.deliver (h.copies hrule)

/-- **Every reachable fleet is coherent**, with arbitrary contexts and deliveries of copies. -/
theorem Reaches.coherent (hids : Function.Injective ids) {money : ι → UInt64} {active : ι → Bool}
    (hf : Reaches DeliversCopies (fresh ids money active) f) : f.Coherent ids :=
  hf.invariant coherent_fresh fun _ _ h he => h.step hids he

/-- What every event keeps in coherent fleets holds throughout, if only copies are delivered. -/
theorem Reaches.invariant_of_coherent {rule : Rule ι κ} {I : Fleet ι κ → Prop}
    (hids : Function.Injective ids) (hrule : ∀ f e, rule f e → DeliversCopies f e)
    (hg : Reaches rule f g) (hf : f.Coherent ids) (h₀ : I f)
    (hstep : ∀ f e, f.Coherent ids → I f → rule f e → I (f.step e)) : g.Coherent ids ∧ I g := by
  refine hg.invariant (I := fun f => f.Coherent ids ∧ I f) ⟨hf, h₀⟩ fun f e h he => ⟨?_, ?_⟩
  · exact h.1.step hids (hrule f e he)
  · exact hstep f e h.1 h.2 he

end Step

end Fleet

end GossipLedger
