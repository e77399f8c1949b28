import GossipLedger.Clock

/-!
# The order of clocks, count by count

`Clock.count` reads a count as a number without bound.  A clock is known by its counts:

* `Clock.dominates_iff_count` : domination compares the counts of *every* replica, although
  `Clock.dominates` walks only along the stored ones;
* `Clock.agrees_iff_count` and `Clock.stamp_eq_iff` : clocks agree, and have one stamp, exactly if
  all their counts are the same;
* `Clock.count_set`, `Clock.count_advance`, `Clock.count_merged` : what the operations on clocks do
  to the counts.

`Clock.joined` is the join of a list of clocks, which is what a client knows that was told them.
-/

namespace GossipLedger

namespace Clock

variable {a b c : Clock} {r s : ReplicaId} {n : UInt64}

/-- The count of a replica as a number without bound. -/
def count (c : Clock) (r : ReplicaId) : Nat :=
  (c.get r).toNat

theorem get_le_iff : a.get r ≤ b.get r ↔ a.count r ≤ b.count r :=
  UInt64.le_iff_toNat_le

theorem get_eq_iff : a.get r = b.get s ↔ a.count r = b.count s :=
  UInt64.toNat_inj.symm

/-! ### The counts of new clocks -/

@[simp]
theorem count_zero : zero.count r = 0 :=
  rfl

theorem count_set : (c.set r n).count s = if r = s then n.toNat else c.count s := by
  rw [count, get_set]
  split <;> rfl

theorem toNat_max (m n : UInt64) : (max m n).toNat = max m.toNat n.toNat := by
  rw [max_eq_ite]
  split <;> rename_i h <;> rw [UInt64.le_iff_toNat_le] at h <;> omega

theorem count_advance :
    (c.advance r n).count s = if r = s then max (c.count s) n.toNat else c.count s := by
  rw [count, get_advance]
  split
  · exact toNat_max _ _
  · rfl

theorem count_merged : (a.merged b).count r = max (a.count r) (b.count r) := by
  rw [count, get_merged, toNat_max]
  rfl

/-- The join of the clocks in a list. -/
def joined (cs : List Clock) : Clock :=
  cs.foldl merged zero

theorem joined_concat {cs : List Clock} : joined (cs ++ [c]) = (joined cs).merged c := by
  rw [joined, List.foldl_append]
  rfl

theorem count_joined_le {cs : List Clock} {bound : Nat} (h : ∀ c ∈ cs, c.count r ≤ bound) :
    (joined cs).count r ≤ bound := by
  have hzero : zero.count r ≤ bound := Nat.zero_le bound
  refine List.foldlRecOn cs merged (motive := fun c => c.count r ≤ bound) hzero ?_
  intro c hc d hd
  rw [count_merged]
  exact Nat.max_le.2 ⟨hc, h d hd⟩

/-! ### Comparison by counts -/

theorem get_of_mem (h : (r, n) ∈ c.entries) : c.get r = n := by
  rw [get, NameMap.mem_entries_iff.1 h, Option.getD_some]

theorem mem_entries_of_get (h : c.get r ≠ 0) : (r, c.get r) ∈ c.entries := by
  refine NameMap.mem_entries_iff.2 ?_
  unfold get at h ⊢
  cases hr : c.counters.get? r with
  | none => rw [hr] at h; exact absurd rfl h
  | some n => rfl

/-- A clock dominates another exactly if it counts as much for every replica. -/
theorem dominates_iff_count : a.dominates b = true ↔ ∀ r, b.count r ≤ a.count r := by
  rw [dominates_iff]
  constructor
  · intro h r
    by_cases hr : b.get r = 0
    · rw [count, hr]
      exact Nat.zero_le _
    · exact get_le_iff.1 (h _ (mem_entries_of_get hr))
  · rintro h ⟨r, n⟩ hn
    rw [← get_of_mem hn]
    exact get_le_iff.2 (h r)

theorem dominates_eq_false_iff : a.dominates b = false ↔ ∃ r, a.count r < b.count r := by
  rw [← Bool.not_eq_true, dominates_iff_count]
  simp only [Classical.not_forall, Nat.not_le]

theorem dominates_refl : c.dominates c = true :=
  dominates_iff_count.2 fun _ => Nat.le_refl _

theorem dominates_trans (hab : a.dominates b = true) (hbc : b.dominates c = true) :
    a.dominates c = true := by
  rw [dominates_iff_count] at *
  exact fun r => Nat.le_trans (hbc r) (hab r)

theorem dominates_zero : c.dominates zero = true :=
  dominates_iff_count.2 fun _ => Nat.zero_le _

theorem dominates_merged_iff :
    c.dominates (a.merged b) = true ↔ c.dominates a = true ∧ c.dominates b = true := by
  simp only [dominates_iff_count, count_merged, Nat.max_le, forall_and]

theorem merged_dominates_left : (a.merged b).dominates a = true :=
  (dominates_merged_iff.1 dominates_refl).1

theorem merged_dominates_right : (a.merged b).dominates b = true :=
  (dominates_merged_iff.1 dominates_refl).2

theorem dominates_foldl_merged_iff {cs : List Clock} : c.dominates (cs.foldl merged a) = true ↔
    c.dominates a = true ∧ ∀ b ∈ cs, c.dominates b = true := by
  induction cs generalizing a with
  | nil => exact (and_iff_left nofun).symm
  | cons b cs ih => rw [List.foldl_cons, ih, dominates_merged_iff, List.forall_mem_cons, and_assoc]

/-- The join is the least clock that has seen everything that those in the list have. -/
theorem dominates_joined_iff {cs : List Clock} :
    c.dominates (joined cs) = true ↔ ∀ b ∈ cs, c.dominates b = true :=
  dominates_foldl_merged_iff.trans (and_iff_right dominates_zero)

/-- Clocks agree exactly if all their counts are the same. -/
theorem agrees_iff_count : a.agrees b = true ↔ ∀ r, a.count r = b.count r := by
  rw [agrees, Bool.and_eq_true, dominates_iff_count, dominates_iff_count]
  constructor
  · exact fun ⟨hab, hba⟩ r => Nat.le_antisymm (hba r) (hab r)
  · exact fun h => ⟨fun r => Nat.le_of_eq (h r).symm, fun r => Nat.le_of_eq (h r)⟩

/-! ### Stamps -/

theorem pairwise_stamp : c.stamp.Pairwise fun x y => x.1 < y.1 :=
  c.counters.increasing.sublist List.filter_sublist

theorem mem_stamp : (r, n) ∈ c.stamp ↔ n ≠ 0 ∧ c.get r = n := by
  rw [stamp, List.mem_filter, decide_eq_true_eq]
  constructor
  · exact fun ⟨hn, h0⟩ => ⟨h0, get_of_mem hn⟩
  · rintro ⟨h0, rfl⟩
    exact ⟨mem_entries_of_get h0, h0⟩

theorem find_stamp : NameMap.find r c.stamp = if c.get r = 0 then none else some (c.get r) := by
  refine Option.ext fun n => ?_
  rw [NameMap.find_eq_some pairwise_stamp, mem_stamp]
  split <;> rename_i h
  · simp only [h, reduceCtorEq, iff_false]
    rintro ⟨h0, rfl⟩
    exact h0 rfl
  · rw [Option.some_inj]
    exact ⟨fun hn => hn.2, fun hn => ⟨hn ▸ h, hn⟩⟩

/-- Clocks have one stamp exactly if all their counts are the same. -/
theorem stamp_eq_iff : a.stamp = b.stamp ↔ ∀ r, a.count r = b.count r := by
  constructor
  · intro h r
    have hr : NameMap.find r a.stamp = NameMap.find r b.stamp := by rw [h]
    rw [find_stamp, find_stamp] at hr
    refine get_eq_iff.1 ?_
    grind
  · intro h
    refine NameMap.eq_of_find pairwise_stamp pairwise_stamp fun r => ?_
    rw [find_stamp, find_stamp, get_eq_iff.2 (h r)]

theorem stamp_eq_iff_agrees : a.stamp = b.stamp ↔ a.agrees b = true :=
  stamp_eq_iff.trans agrees_iff_count.symm

/-! ### Increments -/

theorem increment_of_eq (h : c.get r = maxCount) : c.increment r = .error {} :=
  if_pos h

theorem increment_of_ne (h : c.get r ≠ maxCount) :
    c.increment r = .ok (c.set r (c.get r + 1)) :=
  if_neg h

theorem toNat_succ (h : n ≠ maxCount) : (n + 1).toNat = n.toNat + 1 := by
  have hne : n.toNat ≠ maxCount.toNat := fun hn => h (UInt64.toNat_inj.1 hn)
  have hlt : n.toNat < 18446744073709551616 := n.toNat_lt
  have hmax : maxCount.toNat = 18446744073709551615 := rfl
  rw [UInt64.toNat_add, UInt64.toNat_one]
  exact Nat.mod_eq_of_lt (by omega)

theorem count_le_maxCount : c.count r ≤ maxCount.toNat := by
  have hlt : c.count r < 18446744073709551616 := (c.get r).toNat_lt
  have hmax : maxCount.toNat = 18446744073709551615 := rfl
  omega

theorem get_eq_maxCount_iff : c.get r = maxCount ↔ c.count r = maxCount.toNat :=
  UInt64.toNat_inj.symm

theorem get_ne_maxCount (h : c.count r < maxCount.toNat) : c.get r ≠ maxCount :=
  fun he => Nat.ne_of_lt h (get_eq_maxCount_iff.1 he)

end Clock

end GossipLedger
