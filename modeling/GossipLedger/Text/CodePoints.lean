/-!
# Sets of code points

A property of characters is a set of code points, and such a set falls into ranges.  `CodePoints`
holds the ranges in ascending order, so that a look-up (`CodePoints.contains`) is over at the first
range that begins too far; `contains_iff` says that nothing is missed that way.
-/

namespace GossipLedger

namespace CodePoints

/-- Whether ranges, each given by its first and its last member, lie one behind the other, the first
of them not below `bound`. -/
def ascend (bound : Nat) : List (Nat × Nat) → Bool
  | [] => true
  | (first, last) :: rest => bound ≤ first && first ≤ last && ascend (last + 1) rest

/-- Whether a number lies in one of several ranges in ascending order. -/
def inRanges (n : Nat) : List (Nat × Nat) → Bool
  | [] => false
  | (first, last) :: rest => first ≤ n && (n ≤ last || inRanges n rest)

end CodePoints

/-- A set of code points. -/
structure CodePoints where
  /-- The ranges that make up the set, each by its first and its last member. -/
  ranges : List (Nat × Nat)
  /-- The ranges are in ascending order and do not meet. -/
  ascending : CodePoints.ascend 0 ranges = true

namespace CodePoints

/-- Whether a character is in the set. -/
def contains (s : CodePoints) (ch : Char) : Bool :=
  inRanges ch.toNat s.ranges

theorem le_of_ascend {bound : Nat} {l : List (Nat × Nat)} (h : ascend bound l = true) :
    ∀ r ∈ l, bound ≤ r.1 := by
  induction l generalizing bound with
  | nil => simp
  | cons r rest ih =>
    simp only [ascend, Bool.and_eq_true, decide_eq_true_eq] at h
    simp only [List.mem_cons, forall_eq_or_imp]
    refine ⟨h.1.1, fun s hs => ?_⟩
    have := ih h.2 s hs
    omega

theorem inRanges_iff {n bound : Nat} {l : List (Nat × Nat)} (h : ascend bound l = true) :
    inRanges n l = true ↔ ∃ r ∈ l, r.1 ≤ n ∧ n ≤ r.2 := by
  induction l generalizing bound with
  | nil => simp [inRanges]
  | cons r rest ih =>
    simp only [ascend, Bool.and_eq_true, decide_eq_true_eq] at h
    simp only [inRanges, Bool.and_eq_true, Bool.or_eq_true, decide_eq_true_eq, ih h.2,
      List.mem_cons, exists_eq_or_imp]
    constructor
    · rintro ⟨hfirst, hlast | hrest⟩
      · exact .inl ⟨hfirst, hlast⟩
      · exact .inr hrest
    · rintro (⟨hfirst, hlast⟩ | ⟨s, hs, hn⟩)
      · exact ⟨hfirst, .inl hlast⟩
      · have := le_of_ascend h.2 s hs
        exact ⟨by omega, .inr ⟨s, hs, hn⟩⟩

/-- A set holds a character if one of its ranges does. -/
theorem contains_iff {s : CodePoints} {ch : Char} :
    s.contains ch = true ↔ ∃ r ∈ s.ranges, r.1 ≤ ch.toNat ∧ ch.toNat ≤ r.2 :=
  inRanges_iff s.ascending

end CodePoints

end GossipLedger
