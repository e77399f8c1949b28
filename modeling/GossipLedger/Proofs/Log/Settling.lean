import GossipLedger.Log
import GossipLedger.Proofs.Clock.Order

/-!
# Settling a log

`Log.settle` is described by the two equations `Log.settle_of_none` and `Log.settle_of_some` and by
the induction principle `Log.settle_induction`: what each promotion of the first ready operation
preserves, a whole settling preserves.  From it follow

* `Log.not_ready_settle` : no operation that is left pending is ready;
* `Log.contents_settle` : settling neither loses nor invents an operation;
* `Log.exists_applied` : it appends some of the waiting operations and applies them in their order;
* `Log.Tidy.settle` : the marks of the operations keep telling the two parts of the log apart.
-/

namespace GossipLedger

/-! ### Operations and their marks -/

namespace Operation

variable {op : Operation} {c : Clock}

/-- The number that the origin gave the operation, as a number without bound. -/
def rank (op : Operation) : Nat :=
  op.timestamp.count op.origin

theorem toNat_sequence : op.sequence.toNat = op.rank :=
  rfl

@[simp] theorem origin_marked : op.marked.origin = op.origin := rfl

@[simp] theorem context_marked : op.marked.context = op.context := rfl

@[simp] theorem rank_marked : op.marked.rank = op.rank := rfl

@[simp] theorem stable_marked : op.marked.stable = true := rfl

@[simp] theorem origin_unmarked : op.unmarked.origin = op.origin := rfl

@[simp] theorem context_unmarked : op.unmarked.context = op.context := rfl

@[simp] theorem timestamp_unmarked : op.unmarked.timestamp = op.timestamp := rfl

@[simp] theorem rank_unmarked : op.unmarked.rank = op.rank := rfl

@[simp] theorem stable_unmarked : op.unmarked.stable = false := rfl

@[simp] theorem unmarked_marked : op.marked.unmarked = op.unmarked := rfl

@[simp] theorem marked_unmarked : op.unmarked.marked = op.marked := rfl

@[simp] theorem unmarked_unmarked : op.unmarked.unmarked = op.unmarked := rfl

theorem unmarked_eq_self (h : op.stable = false) : op.unmarked = op := by
  cases op; cases h; rfl

theorem marked_eq_self (h : op.stable = true) : op.marked = op := by
  cases op; cases h; rfl

theorem isReady_iff : op.isReady c = true ↔ ∀ r, op.context.count r ≤ c.count r :=
  Clock.dominates_iff_count

/-- Only the counts of a clock matter. -/
theorem isReady_congr {d : Clock} (h : ∀ r, c.count r = d.count r) :
    op.isReady c = op.isReady d := by
  rw [Bool.eq_iff_iff, isReady_iff, isReady_iff]
  simp only [h]

end Operation

namespace Log

/-! ### The contents of a log -/

/-- The operations that a log holds, without their marks. -/
def contents (log : Log) : List Operation :=
  log.operations.map Operation.unmarked

/-- The marks of the operations tell the two parts of the log apart. -/
structure Tidy (log : Log) : Prop where
  /-- What is applied is marked. -/
  stable : ∀ op ∈ log.stable, op.stable = true
  /-- What is waiting is not. -/
  pending : ∀ op ∈ log.pending, op.stable = false

theorem mem_contents {log : Log} {x : Operation} :
    x ∈ log.contents ↔ ∃ op ∈ log.operations, op.unmarked = x :=
  List.mem_map

theorem unmarked_mem_contents {log : Log} {op : Operation} (h : op ∈ log.operations) :
    op.unmarked ∈ log.contents :=
  mem_contents.2 ⟨op, h, rfl⟩

theorem stable_of_mem_contents {log : Log} {x : Operation} (h : x ∈ log.contents) :
    x.stable = false := by
  obtain ⟨op, -, rfl⟩ := mem_contents.1 h
  rfl

/-- In a tidy log an operation is either applied, and marked, or waiting. -/
theorem Tidy.mem_contents_iff {log : Log} (h : log.Tidy) {x : Operation} (hx : x.stable = false) :
    x ∈ log.contents ↔ x.marked ∈ log.stable ∨ x ∈ log.pending := by
  rw [mem_contents]
  constructor
  · rintro ⟨op, hop, rfl⟩
    rcases List.mem_append.1 hop with hs | hp
    · left
      rwa [Operation.marked_unmarked, Operation.marked_eq_self (h.stable op hs)]
    · right
      rwa [Operation.unmarked_eq_self (h.pending op hp)]
  · rintro (hs | hp)
    · exact ⟨x.marked, List.mem_append_left _ hs, Operation.unmarked_eq_self hx⟩
    · exact ⟨x, List.mem_append_right _ hp, Operation.unmarked_eq_self hx⟩

/-! ### The first ready operation -/

theorem takeReady?_eq_none {c : Clock} {ops : List Operation} :
    takeReady? c ops = none ↔ ∀ op ∈ ops, op.isReady c = false := by
  induction ops with
  | nil => simp [takeReady?]
  | cons op rest ih =>
    cases hop : op.isReady c <;> simp [takeReady?, hop, ih]

theorem takeReady?_eq_some {c : Clock} {ops rest : List Operation} {op : Operation}
    (h : takeReady? c ops = some (op, rest)) :
    ∃ before after, ops = before ++ op :: after ∧ rest = before ++ after ∧
      (∀ q ∈ before, q.isReady c = false) ∧ op.isReady c = true := by
  induction ops generalizing rest with
  | nil => cases h
  | cons q ops ih =>
    rw [takeReady?] at h
    split at h
    · rename_i hq
      obtain ⟨rfl, rfl⟩ := Prod.mk.inj (Option.some.inj h)
      exact ⟨[], _, rfl, rfl, by simp, hq⟩
    · rename_i hq
      obtain ⟨⟨found, left⟩, hf, he⟩ := Option.map_eq_some_iff.1 h
      obtain ⟨rfl, rfl⟩ := Prod.mk.inj he
      obtain ⟨before, after, rfl, hrest, hb, hop⟩ := ih hf
      refine ⟨q :: before, after, rfl, by rw [hrest]; rfl, ?_, hop⟩
      intro p hp
      rcases List.mem_cons.1 hp with rfl | hp
      · exact Bool.not_eq_true _ ▸ hq
      · exact hb p hp

theorem takeReady?_append {c : Clock} {before : List Operation}
    (h : ∀ q ∈ before, q.isReady c = false) {op : Operation} (hop : op.isReady c = true)
    (after : List Operation) :
    takeReady? c (before ++ op :: after) = some (op, before ++ after) := by
  induction before with
  | nil => simp [takeReady?, hop]
  | cons q before ih =>
    obtain ⟨hq, hb⟩ := List.forall_mem_cons.1 h
    simp [takeReady?, hq, ih hb]

/-! ### Equations and induction -/

section Settle

variable {σ : Type} {clockOf : σ → Clock} {apply : Operation → σ → σ} {log : Log} {s : σ}

theorem settle_of_none (h : ∀ op ∈ log.pending, op.isReady (clockOf s) = false) :
    settle clockOf apply log s = (log, s) := by
  rw [settle]
  cases hn : log.pending.length with
  | zero => rfl
  | succ n => rw [settleUpTo, takeReady?_eq_none.2 h]

theorem settle_of_some {before after : List Operation} {op : Operation}
    (hlog : log.pending = before ++ op :: after)
    (hbefore : ∀ q ∈ before, q.isReady (clockOf s) = false)
    (hop : op.isReady (clockOf s) = true) :
    settle clockOf apply log s =
      settle clockOf apply ⟨log.stable ++ [op.marked], before ++ after⟩ (apply op.marked s) := by
  have hlen : log.pending.length = (before ++ after).length + 1 := by
    rw [hlog, List.length_append, List.length_append, List.length_cons, Nat.add_assoc]
  rw [settle, hlen, settleUpTo, hlog, takeReady?_append hbefore hop]
  rfl

theorem settle_cons {rest : List Operation} {op : Operation} (hlog : log.pending = op :: rest)
    (hop : op.isReady (clockOf s) = true) :
    settle clockOf apply log s =
      settle clockOf apply ⟨log.stable ++ [op.marked], rest⟩ (apply op.marked s) := by
  have hsplit : log.pending = [] ++ op :: rest := hlog
  rw [settle_of_some hsplit (by simp) hop, List.nil_append]

/-- What each promotion of the first ready operation preserves, settling preserves. -/
theorem settle_induction {P : Log → σ → Prop}
    (hstep : ∀ log s before op after, log.pending = before ++ op :: after →
      (∀ q ∈ before, q.isReady (clockOf s) = false) → op.isReady (clockOf s) = true →
      P log s → P ⟨log.stable ++ [op.marked], before ++ after⟩ (apply op.marked s))
    (h : P log s) :
    P (settle clockOf apply log s).1 (settle clockOf apply log s).2 := by
  -- each promotion shortens the pending part, and the bound with it
  generalize hn : log.pending.length = n
  induction n generalizing log s with
  | zero =>
    rw [settle, hn]
    exact h
  | succ n ih =>
    cases ht : takeReady? (clockOf s) log.pending with
    | none =>
      rw [settle_of_none (takeReady?_eq_none.1 ht)]
      exact h
    | some found =>
      obtain ⟨before, after, hlog, -, hb, hop⟩ := takeReady?_eq_some ht
      rw [settle_of_some hlog hb hop]
      refine ih (hstep _ _ _ _ _ hlog hb hop h) ?_
      rw [hlog, List.length_append, List.length_cons] at hn
      rw [List.length_append]
      omega

/-- Settling ends only where nothing is ready. -/
theorem not_ready_settle :
    ∀ op ∈ (settle clockOf apply log s).1.pending,
      op.isReady (clockOf (settle clockOf apply log s).2) = false := by
  generalize hn : log.pending.length = n
  induction n generalizing log s with
  | zero =>
    rw [settle, hn, settleUpTo, List.eq_nil_of_length_eq_zero hn]
    simp
  | succ n ih =>
    cases ht : takeReady? (clockOf s) log.pending with
    | none =>
      rw [settle_of_none (takeReady?_eq_none.1 ht)]
      exact takeReady?_eq_none.1 ht
    | some found =>
      obtain ⟨before, after, hlog, -, hb, hop⟩ := takeReady?_eq_some ht
      rw [settle_of_some hlog hb hop]
      refine ih ?_
      rw [hlog, List.length_append, List.length_cons] at hn
      rw [List.length_append]
      omega

/-- What was waiting still waits, or it has been applied. -/
theorem mem_pending_or_marked_mem_stable {op : Operation} (hop : op ∈ log.pending) :
    op ∈ (settle clockOf apply log s).1.pending ∨
      op.marked ∈ (settle clockOf apply log s).1.stable := by
  refine settle_induction
    (P := fun now _ => op ∈ now.pending ∨ op.marked ∈ now.stable) ?_ (.inl hop)
  intro now _ before q after hnow _ _ ih
  rcases ih with hwaits | happlied
  · rw [hnow] at hwaits
    by_cases heq : op = q
    · subst heq
      exact .inr (by simp)
    · left
      simpa [heq] using hwaits
  · exact .inr (List.mem_append_left _ happlied)

/-- What waits after a promotion waited before it. -/
theorem mem_pending_of_promote {before after : List Operation} {op q : Operation}
    (hlog : log.pending = before ++ op :: after) (hq : q ∈ before ++ after) : q ∈ log.pending := by
  rw [hlog]
  exact ((List.sublist_cons_self op after).append_left before).subset hq

/-- Settling appends some of the waiting operations to the stable part and applies them in their
order. -/
theorem exists_applied : ∃ applied, (settle clockOf apply log s).1.stable = log.stable ++ applied ∧
    (settle clockOf apply log s).2 = applied.foldl (fun s op => apply op s) s ∧
      ∀ x ∈ applied, ∃ op ∈ log.pending, op.marked = x := by
  suffices h : (∀ op ∈ (settle clockOf apply log s).1.pending, op ∈ log.pending) ∧
      ∃ applied, (settle clockOf apply log s).1.stable = log.stable ++ applied ∧
        (settle clockOf apply log s).2 = applied.foldl (fun s op => apply op s) s ∧
          ∀ x ∈ applied, ∃ op ∈ log.pending, op.marked = x from h.2
  refine settle_induction (P := fun now t => (∀ op ∈ now.pending, op ∈ log.pending) ∧
    ∃ applied, now.stable = log.stable ++ applied ∧
      t = applied.foldl (fun s op => apply op s) s ∧
        ∀ x ∈ applied, ∃ op ∈ log.pending, op.marked = x) ?_ ⟨by simp, [], by simp, rfl, by simp⟩
  rintro now t before op after hnow - - ⟨hpending, applied, hstable, rfl, happlied⟩
  have hop : op ∈ log.pending := hpending op (by simp [hnow])
  refine ⟨?_, applied ++ [op.marked], by simp [hstable], by simp, ?_⟩
  · intro q hq
    exact hpending q (mem_pending_of_promote hnow hq)
  · intro x hx
    rcases List.mem_append.1 hx with hx | hx
    · exact happlied x hx
    · exact ⟨op, hop, (List.mem_singleton.1 hx).symm⟩

theorem contents_promote {before after : List Operation} {op : Operation}
    (hlog : log.pending = before ++ op :: after) :
    (contents ⟨log.stable ++ [op.marked], before ++ after⟩).Perm log.contents := by
  simp only [contents, operations, hlog, List.map_append, List.map_cons,
    Operation.unmarked_marked, List.append_assoc, List.singleton_append]
  exact List.perm_middle.symm.append_left _

/-- Settling neither loses nor invents an operation. -/
theorem contents_settle : (settle clockOf apply log s).1.contents.Perm log.contents :=
  settle_induction (P := fun now _ => now.contents.Perm log.contents)
    (fun _ _ _ _ _ hlog _ _ ih => (contents_promote hlog).trans ih) (.refl _)

theorem mem_contents_settle {x : Operation} :
    x ∈ (settle clockOf apply log s).1.contents ↔ x ∈ log.contents :=
  contents_settle.mem_iff

theorem Tidy.settle (h : log.Tidy) : (Log.settle clockOf apply log s).1.Tidy := by
  refine settle_induction (P := fun log _ => log.Tidy) ?_ h
  intro log s before op after hlog _ _ hlog'
  refine ⟨fun q hq => ?_, fun q hq => hlog'.pending q (mem_pending_of_promote hlog hq)⟩
  rcases List.mem_append.1 hq with hq | hq
  · exact hlog'.stable q hq
  · rw [List.mem_singleton.1 hq]
    rfl

end Settle

end Log

end GossipLedger
