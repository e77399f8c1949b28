import GossipLedger.Proofs.Log.Flat
import Mathlib.Data.List.Basic

/-!
# Which operations settling promotes

Settling a log promotes a list of operations, one after the other.  Nothing is assumed of the log,
of the state or of what applying an operation does to it; the clock may go up, down or sideways.
`Log.Promotes` says which list it is: each operation of it is the first one that is ready among
those that are still waiting when its turn comes, and after the last one nothing is ready.  The
stable part gets these operations, marked, in this order, and the pending part loses them and keeps
its own.

The list is found by as many steps as it has elements, so it makes no difference how far above the
number of waiting operations the bound is (`Log.settleUpTo_eq`).  A log that is stored as one list
with a boundary counts these steps as it turns the operations to the boundary one by one
(`FlatLog.settleUpTo`): it ends with the same operations before and behind the boundary, and the
number that it has counted is the length of the list.
-/

namespace GossipLedger

namespace Log

variable {σ : Type} {clockOf : σ → Clock} {apply : Operation → σ → σ} {log : Log} {s : σ}

/-! ### The number of steps -/

/-- As many steps as there are operations that wait are enough. -/
theorem settleUpTo_eq {bound : Nat} (h : log.pending.length ≤ bound) :
    settleUpTo clockOf apply bound log s = settle clockOf apply log s := by
  induction bound generalizing log s with
  | zero => rw [settle, Nat.le_zero.1 h]
  | succ bound ih =>
    cases ht : takeReady? (clockOf s) log.pending with
    | none => rw [settleUpTo, ht, settle_of_none (takeReady?_eq_none.1 ht)]
    | some found =>
      obtain ⟨op, rest⟩ := found
      obtain ⟨before, after, hlog, rfl, hbefore, hop⟩ := takeReady?_eq_some ht
      rw [settleUpTo, ht, settle_of_some hlog hbefore hop]
      refine ih ?_
      rw [hlog, List.length_append, List.length_cons] at h
      rw [List.length_append]
      omega

/-! ### All promotions -/

/-- The state after operations have been applied in their order, each of them marked. -/
def applied (apply : Operation → σ → σ) (s : σ) (ops : List Operation) : σ :=
  ops.foldl (fun s op => apply op.marked s) s

@[simp] theorem applied_nil : applied apply s [] = s := rfl

theorem applied_concat {ops : List Operation} {op : Operation} :
    applied apply s (ops ++ [op]) = apply op.marked (applied apply s ops) :=
  List.foldl_concat ..

/-- These operations have been promoted one after the other, each as the first one that is ready. -/
structure Promoted (clockOf : σ → Clock) (apply : Operation → σ → σ) (log : Log) (s : σ)
    (ops : List Operation) (now : Log) (t : σ) : Prop where
  /-- Each of them was the first ready one of those that were waiting when its turn came. -/
  first : ∀ k (hk : k < ops.length), (log.pending.diff (ops.take k)).find?
    (·.isReady (clockOf (applied apply s (ops.take k)))) = some ops[k]
  /-- They have been added to the stable part in this order, each of them marked. -/
  stable : now.stable = log.stable ++ ops.map Operation.marked
  /-- The others are still waiting, in their old order. -/
  pending : now.pending = log.pending.diff ops
  /-- None has been lost, none has been added and none has been changed. -/
  perm : (ops ++ now.pending).Perm log.pending
  /-- Each has been applied, marked, as soon as it was promoted. -/
  state : t = applied apply s ops

theorem promoted_nil : Promoted clockOf apply log s [] log s where
  first := nofun
  stable := (List.append_nil _).symm
  pending := rfl
  perm := .refl _
  state := rfl

/-- One more promotion. -/
theorem Promoted.concat {ops before after : List Operation} {op : Operation} {now : Log} {t : σ}
    (h : Promoted clockOf apply log s ops now t) (hnow : now.pending = before ++ op :: after)
    (hbefore : ∀ q ∈ before, q.isReady (clockOf t) = false) (hop : op.isReady (clockOf t) = true) :
    Promoted clockOf apply log s (ops ++ [op]) ⟨now.stable ++ [op.marked], before ++ after⟩
      (apply op.marked t) where
  first k hk := by
    rw [List.length_append, List.length_singleton] at hk
    rcases Nat.lt_succ_iff_lt_or_eq.1 hk with hlt | rfl
    · rw [List.take_append_of_le_length (Nat.le_of_lt hlt), List.getElem_append_left hlt]
      exact h.first k hlt
    · rw [List.take_left, List.getElem_concat_length rfl, ← h.pending, ← h.state, hnow,
        List.find?_eq_some_iff_append]
      exact ⟨hop, before, after, rfl, fun q hq => by rw [hbefore q hq]; rfl⟩
  stable := by
    rw [h.stable, List.map_append, List.append_assoc]
    rfl
  pending := by
    have hnot : op ∉ before := by
      intro hmem
      rw [hbefore op hmem] at hop
      cases hop
    rw [List.diff_append, ← h.pending, hnow, List.diff_cons, List.diff_nil,
      List.erase_append_right _ hnot, List.erase_cons_head]
  perm := by
    rw [List.append_assoc, List.singleton_append]
    refine .trans (.append_left ops ?_) h.perm
    rw [hnow]
    exact List.perm_middle.symm
  state := by rw [applied_concat, h.state]

theorem Promoted.sublist {ops : List Operation} {now : Log} {t : σ}
    (h : Promoted clockOf apply log s ops now t) : now.pending.Sublist log.pending := by
  rw [h.pending]
  exact List.diff_sublist _ _

theorem Promoted.length_stable {ops : List Operation} {now : Log} {t : σ}
    (h : Promoted clockOf apply log s ops now t) :
    now.stable.length = log.stable.length + ops.length := by
  rw [h.stable, List.length_append, List.length_map]

theorem Promoted.promotedSince {ops : List Operation} {now : Log} {t : σ}
    (h : Promoted clockOf apply log s ops now t) : now.promotedSince log = ops.length := by
  rw [Log.promotedSince, h.length_stable, Nat.add_sub_cancel_left]

theorem exists_promoted (clockOf : σ → Clock) (apply : Operation → σ → σ) (log : Log) (s : σ) :
    ∃ ops, Promoted clockOf apply log s ops (settle clockOf apply log s).1
      (settle clockOf apply log s).2 := by
  refine settle_induction (P := fun now t => ∃ ops, Promoted clockOf apply log s ops now t) ?_
    ⟨[], promoted_nil⟩
  rintro now t before op after hnow hbefore hop ⟨ops, h⟩
  exact ⟨ops ++ [op], h.concat hnow hbefore hop⟩

/-- Settling a log has promoted these operations, and is done. -/
structure Promotes (clockOf : σ → Clock) (apply : Operation → σ → σ) (log : Log) (s : σ)
    (ops : List Operation) : Prop extends Promoted clockOf apply log s ops
      (settle clockOf apply log s).1 (settle clockOf apply log s).2 where
  /-- What is still waiting is not ready. -/
  waiting : ∀ op ∈ (settle clockOf apply log s).1.pending,
    op.isReady (clockOf (settle clockOf apply log s).2) = false
  /-- Those that still wait do so in their old order. -/
  order : (settle clockOf apply log s).1.pending.Sublist log.pending
  /-- The number that is reported is the number of promotions. -/
  count : (settle clockOf apply log s).1.promotedSince log = ops.length

/-- **Settling is exact.**  It ends within as many steps as there are operations that wait; it
promotes, one after the other, always the first operation that is ready, until none is; and it does
nothing else to the log and to the state.  A log that is stored as one list does the same, and
counts one step for each of these operations. -/
theorem settle_exact (clockOf : σ → Clock) (apply : Operation → σ → σ) (log : Log) (s : σ) :
    (∀ bound, log.pending.length ≤ bound →
      settleUpTo clockOf apply bound log s = settle clockOf apply log s) ∧
    ∃ ops, Promotes clockOf apply log s ops ∧
      ∀ (τ : Type) (flat : FlatLog τ), flat.Lists log → ∀ bound, log.pending.length ≤ bound →
        flat.SettlesAs log (flat.settleUpTo clockOf apply bound s) (settle clockOf apply log s) ∧
          (flat.settleUpTo clockOf apply bound s).1 = ops.length := by
  obtain ⟨ops, h⟩ := exists_promoted clockOf apply log s
  refine ⟨fun _ hbound => settleUpTo_eq hbound, ops, ?_, fun τ flat hflat bound hbound => ?_⟩
  · exact { h with waiting := not_ready_settle, order := h.sublist, count := h.promotedSince }
  · have hdone : flat.SettlesAs log (flat.settleUpTo clockOf apply bound s)
        (settle clockOf apply log s) := by
      rw [← settleUpTo_eq hbound]
      exact hflat.settleUpTo
    exact ⟨hdone, hdone.promotedSince.symm.trans h.promotedSince⟩

end Log

end GossipLedger
