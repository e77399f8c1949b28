import GossipLedger.Proofs.Clock.Comparison
import GossipLedger.Operation

/-!
# The join of clocks

To merge two clocks is to take, for every replica, the larger one of two counts
(`Clock.get_merged`).  In the order of all counts this is the least upper bound
(`Clock.Joins`); and since it is taken name by name (`NameMap.combine`), its laws hold of the
clocks as they are stored, zeros included: `Clock.merged_comm`, `Clock.merged_assoc` and
`Clock.merged_self` are equations and not agreements.

Clocks change by merging, advancing and incrementing (`Clock.Change`).  None of these lowers a
count (`Clock.exceeds_apply`), so along any changes what is ready stays ready
(`Clock.exceeds_of_applyAll`).  Only an increment can fail, where a count is at its largest value.
-/

namespace GossipLedger

namespace NameMap

variable {β : Type} {f : β → β → β} {m₁ m₂ m₃ : NameMap β}

/-! ### Laws of combined maps -/

theorem combine_comm (hf : ∀ x y, f x y = f y x) : combine f m₁ m₂ = combine f m₂ m₁ := by
  refine ext_get? fun name => ?_
  rw [get?_combine, get?_combine]
  cases m₁.get? name <;> cases m₂.get? name <;> simp [join, hf]

theorem combine_assoc (hf : ∀ x y z, f (f x y) z = f x (f y z)) :
    combine f (combine f m₁ m₂) m₃ = combine f m₁ (combine f m₂ m₃) := by
  refine ext_get? fun name => ?_
  simp only [get?_combine]
  cases m₁.get? name <;> cases m₂.get? name <;> cases m₃.get? name <;> simp [join, hf]

theorem combine_self (hf : ∀ x, f x x = x) : combine f m₁ m₁ = m₁ := by
  refine ext_get? fun name => ?_
  rw [get?_combine]
  cases m₁.get? name <;> simp [join, hf]

end NameMap

namespace Clock

variable {a b c d : Clock} {r s : ReplicaId} {n : UInt64}

/-! ### Merging -/

theorem merged_comm : a.merged b = b.merged a := by
  unfold merged
  rw [NameMap.combine_comm fun x y => ?_]
  rw [← UInt64.toNat_inj, toNat_max, toNat_max, Nat.max_comm]

theorem merged_assoc : (a.merged b).merged c = a.merged (b.merged c) := by
  unfold merged
  rw [NameMap.combine_assoc fun x y z => ?_]
  simp only [← UInt64.toNat_inj, toNat_max, Nat.max_assoc]

theorem merged_self : a.merged a = a := by
  unfold merged
  rw [NameMap.combine_self fun x => ?_]
  rw [← UInt64.toNat_inj, toNat_max, Nat.max_self]

/-- A clock has seen all that another has exactly if merging adds nothing to its counts. -/
theorem agrees_merged_iff : (a.merged b).agrees a = true ↔ a.dominates b = true := by
  rw [agrees_iff_count, dominates_iff_count]
  refine forall_congr' fun r => ?_
  rw [count_merged]
  omega

/-- What one clock is to two others that it is merged from. -/
structure Joins (a b : Clock) : Prop where
  /-- Each count is the larger one of two. -/
  get : ∀ r, (a.merged b).get r = max (a.get r) (b.get r)
  /-- The join has seen all that the first clock has. -/
  left : (a.merged b).dominates a = true
  /-- And all that the second one has. -/
  right : (a.merged b).dominates b = true
  /-- Whatever has seen all that both have has seen all that the join has. -/
  least : ∀ c : Clock, c.dominates a = true → c.dominates b = true → c.dominates (a.merged b) = true
  /-- The order is known by the join. -/
  order : a.dominates b = true ↔ (a.merged b).agrees a = true

theorem joins (a b : Clock) : a.Joins b where
  get _ := get_merged
  left := merged_dominates_left
  right := merged_dominates_right
  least _ ha hb := dominates_merged_iff.2 ⟨ha, hb⟩
  order := agrees_merged_iff.symm

/-! ### Growth -/

/-- A clock that may stand in the place of an earlier one. -/
structure Exceeds (d c : Clock) : Prop where
  /-- No count is lower. -/
  counts : ∀ r, c.get r ≤ d.get r
  /-- What was ready is ready. -/
  ready : ∀ op : Operation, op.isReady c = true → op.isReady d = true

theorem exceeds_iff : d.Exceeds c ↔ d.dominates c = true := by
  constructor
  · exact fun h => dominates_iff_get.2 h.counts
  · exact fun h => ⟨dominates_iff_get.1 h, fun op hop => dominates_trans h hop⟩

theorem Exceeds.trans (hcd : d.Exceeds c) (hbc : c.Exceeds b) : d.Exceeds b := by
  rw [exceeds_iff] at *
  exact dominates_trans hcd hbc

theorem exceeds_merged : (c.merged d).Exceeds c :=
  exceeds_iff.2 merged_dominates_left

theorem exceeds_advance : (c.advance r n).Exceeds c := by
  rw [exceeds_iff, dominates_iff_count]
  intro s
  rw [count_advance]
  split
  · exact Nat.le_max_left _ _
  · exact Nat.le_refl _

theorem exceeds_set_succ (h : c.get r ≠ maxCount) : (c.set r (c.get r + 1)).Exceeds c := by
  rw [exceeds_iff, dominates_iff_count]
  intro s
  rw [count_set]
  split
  · rename_i hrs
    rw [toNat_succ h, ← hrs]
    exact Nat.le_succ _
  · exact Nat.le_refl _

/-! ### Changes of a clock -/

/-- What is done to the clock of a replica or of a client. -/
inductive Change where
  /-- Another clock is merged in. -/
  | merge (other : Clock)
  /-- The count of a replica is raised to at least a value. -/
  | advance (replica : ReplicaId) (count : UInt64)
  /-- The count of a replica is raised by one. -/
  | increment (replica : ReplicaId)

/-- The clock after a change. -/
def apply (c : Clock) : Change → Except CounterOverflow Clock
  | .merge other => .ok (c.merged other)
  | .advance r n => .ok (c.advance r n)
  | .increment r => c.increment r

/-- The clock after several changes, the first of which that fails ends them. -/
def applyAll (c : Clock) (changes : List Change) : Except CounterOverflow Clock :=
  changes.foldlM apply c

/-- A change exceeds the clock, unless it would count beyond the largest value. -/
theorem exceeds_apply (c : Clock) (change : Change) :
    (∃ d, c.apply change = .ok d ∧ d.Exceeds c) ∨
      ∃ r, change = .increment r ∧ c.get r = maxCount ∧ c.apply change = .error {} := by
  cases change with
  | merge other => exact .inl ⟨_, rfl, exceeds_merged⟩
  | advance r n => exact .inl ⟨_, rfl, exceeds_advance⟩
  | increment r =>
    by_cases h : c.get r = maxCount
    · exact .inr ⟨r, rfl, h, increment_of_eq h⟩
    · exact .inl ⟨_, increment_of_ne h, exceeds_set_succ h⟩

/-- Changes exceed the clock that they began with. -/
theorem exceeds_of_applyAll {changes : List Change} (h : c.applyAll changes = .ok d) :
    d.Exceeds c := by
  induction changes generalizing c with
  | nil =>
    obtain rfl : c = d := Except.ok.inj h
    exact exceeds_iff.2 dominates_refl
  | cons change rest ih =>
    rw [applyAll, List.foldlM_cons] at h
    obtain ⟨e, he, hexceeds⟩ | ⟨-, -, -, he⟩ := exceeds_apply c change
    · rw [he] at h
      exact (ih h).trans hexceeds
    · rw [he] at h
      cases h

/-- **Merging is the join of clocks.**  It is the least upper bound in the order of all counts and
obeys the laws of a semilattice, on the clocks as they are stored; and no change of a clock that can
be made lowers a count or takes back that an operation is ready. -/
theorem merged_semilattice :
    (∀ a b : Clock, a.Joins b) ∧
    Std.Commutative merged ∧ Std.Associative merged ∧ Std.IdempotentOp merged ∧
    (∀ (c : Clock) (change : Change),
      (∃ d, c.apply change = .ok d ∧ d.Exceeds c) ∨
        ∃ r, change = .increment r ∧ c.get r = maxCount ∧ c.apply change = .error {}) ∧
    ∀ (c d : Clock) (changes : List Change), c.applyAll changes = .ok d → d.Exceeds c where
  left := joins
  right.left := ⟨fun _ _ => merged_comm⟩
  right.right.left := ⟨fun _ _ _ => merged_assoc⟩
  right.right.right.left := ⟨fun _ => merged_self⟩
  right.right.right.right.left := exceeds_apply
  right.right.right.right.right := fun _ _ _ => exceeds_of_applyAll

end Clock

end GossipLedger
