import GossipLedger.Proofs.Clock.Order
import Mathlib.Order.Defs.Unbundled

/-!
# Comparing clocks

The comparisons of two clocks walk along the counts that are stored.  What they decide is the order
of all counts, of every replica whether stored or not (`Clock.Compares`).  This order is only a
preorder: clocks that differ in stored zeros lie below each other, and agree
(`Clock.order_pointwise`).

A comparison has two answers in it, whether the first clock is at most the second one
(`ClockOrder.atMost`) and whether it is at least the second one (`ClockOrder.atLeast`), and is known
by them (`Clock.compare_eq_iff`).
-/

namespace GossipLedger

namespace ClockOrder

/-- The order of the same clocks, the second one first. -/
def swap : ClockOrder → ClockOrder
  | equal => equal
  | before => after
  | after => before
  | concurrent => concurrent

/-- Whether no count of the first clock exceeds that of the second. -/
def atMost : ClockOrder → Bool
  | equal => true
  | before => true
  | after => false
  | concurrent => false

/-- Whether no count of the second clock exceeds that of the first. -/
def atLeast : ClockOrder → Bool
  | equal => true
  | before => false
  | after => true
  | concurrent => false

end ClockOrder

namespace Clock

variable {a b c : Clock}

/-! ### Domination and agreement -/

theorem get_lt_iff {r : ReplicaId} : a.get r < b.get r ↔ a.count r < b.count r :=
  UInt64.lt_iff_toNat_lt

theorem dominates_iff_get : a.dominates b = true ↔ ∀ r, b.get r ≤ a.get r := by
  rw [dominates_iff_count]
  exact forall_congr' fun _ => get_le_iff.symm

theorem dominates_eq_false_iff_get : a.dominates b = false ↔ ∃ r, a.get r < b.get r := by
  rw [dominates_eq_false_iff]
  exact exists_congr fun _ => get_lt_iff.symm

theorem agrees_iff_get : a.agrees b = true ↔ ∀ r, a.get r = b.get r := by
  rw [agrees_iff_count]
  exact forall_congr' fun _ => get_eq_iff.symm

theorem agrees_refl (c : Clock) : c.agrees c = true :=
  agrees_iff_count.2 fun _ => rfl

theorem agrees_symm (h : a.agrees b = true) : b.agrees a = true := by
  rw [agrees_iff_count] at h ⊢
  exact fun r => (h r).symm

theorem agrees_trans (hab : a.agrees b = true) (hbc : b.agrees c = true) : a.agrees c = true := by
  rw [agrees_iff_count] at hab hbc ⊢
  exact fun r => (hab r).trans (hbc r)

/-! ### The four orders -/

/-- An order is known by its two answers. -/
theorem compare_eq_iff {o : ClockOrder} :
    a.compare b = o ↔ b.dominates a = o.atMost ∧ a.dominates b = o.atLeast := by
  unfold compare
  cases b.dominates a <;> cases a.dominates b <;> cases o <;>
    simp [ClockOrder.atMost, ClockOrder.atLeast]

theorem compare_swap : b.compare a = (a.compare b).swap := by
  unfold compare
  cases b.dominates a <;> cases a.dominates b <;> rfl

theorem compare_eq_equal_iff : a.compare b = .equal ↔ a.agrees b = true := by
  rw [compare_eq_iff, agrees, Bool.and_eq_true]
  exact and_comm

theorem compare_eq_before_iff :
    a.compare b = .before ↔ (∀ r, a.get r ≤ b.get r) ∧ ∃ r, a.get r < b.get r :=
  compare_eq_iff.trans (and_congr dominates_iff_get dominates_eq_false_iff_get)

theorem compare_eq_after_iff :
    a.compare b = .after ↔ (∃ r, b.get r < a.get r) ∧ ∀ r, b.get r ≤ a.get r :=
  compare_eq_iff.trans (and_congr dominates_eq_false_iff_get dominates_iff_get)

theorem compare_eq_concurrent_iff :
    a.compare b = .concurrent ↔ (∃ r, b.get r < a.get r) ∧ ∃ r, a.get r < b.get r :=
  compare_eq_iff.trans (and_congr dominates_eq_false_iff_get dominates_eq_false_iff_get)

theorem precedes_iff : a.precedes b = true ↔ a.compare b = .before :=
  decide_eq_true_iff

theorem isConcurrent_iff : a.isConcurrent b = true ↔ a.compare b = .concurrent :=
  decide_eq_true_iff

/-! ### Strict order -/

theorem precedes_irrefl : a.precedes a = false := by
  rw [← Bool.not_eq_true, precedes_iff, compare_eq_before_iff]
  rintro ⟨-, r, hlt⟩
  exact UInt64.lt_irrefl _ hlt

theorem precedes_trans (hab : a.precedes b = true) (hbc : b.precedes c = true) :
    a.precedes c = true := by
  rw [precedes_iff, compare_eq_before_iff] at hab hbc ⊢
  obtain ⟨hle, r, hlt⟩ := hab
  refine ⟨fun s => UInt64.le_trans (hle s) (hbc.1 s), r, ?_⟩
  exact UInt64.lt_of_lt_of_le hlt (hbc.1 r)

/-- Two clocks stand to each other in one of four ways. -/
theorem count_true_eq_one :
    [a.precedes b, b.precedes a, a.agrees b, a.isConcurrent b].count true = 1 := by
  -- all four are read off one comparison
  have hagrees : a.agrees b = decide (a.compare b = .equal) := by
    rw [Bool.eq_iff_iff, decide_eq_true_iff, compare_eq_equal_iff]
  rw [precedes, precedes, isConcurrent, hagrees, compare_swap (a := a) (b := b)]
  cases a.compare b <;> rfl

/-! ### The order of all counts -/

/-- What the comparisons of two clocks say about their counts. -/
structure Compares (a b : Clock) : Prop where
  /-- The first clock dominates if it counts as much for every replica. -/
  dominates : a.dominates b = true ↔ ∀ r, b.get r ≤ a.get r
  /-- The clocks agree if they count the same for every replica. -/
  agrees : a.agrees b = true ↔ ∀ r, a.get r = b.get r
  /-- So they do if they are equal in order. -/
  equal : a.compare b = .equal ↔ ∀ r, a.get r = b.get r
  /-- The first one lies before the second if it counts no more for any replica and less for one. -/
  before : a.compare b = .before ↔ (∀ r, a.get r ≤ b.get r) ∧ ∃ r, a.get r < b.get r
  /-- It lies after the second if it counts no less for any replica and more for one. -/
  after : a.compare b = .after ↔ (∃ r, b.get r < a.get r) ∧ ∀ r, b.get r ≤ a.get r
  /-- The clocks are concurrent if each counts more than the other for some replica. -/
  concurrent : a.compare b = .concurrent ↔ (∃ r, b.get r < a.get r) ∧ ∃ r, a.get r < b.get r
  /-- Seen from the second clock, before and after change places. -/
  swap : b.compare a = (a.compare b).swap
  /-- The first clock precedes the second if it lies before it. -/
  precedes : a.precedes b = true ↔ (∀ r, a.get r ≤ b.get r) ∧ ∃ r, a.get r < b.get r
  /-- Neither has seen all of the other if they are concurrent. -/
  isConcurrent : a.isConcurrent b = true ↔ (∃ r, b.get r < a.get r) ∧ ∃ r, a.get r < b.get r
  /-- Of preceding, being preceded, agreeing and being concurrent just one is the case. -/
  exclusive : [a.precedes b, b.precedes a, a.agrees b, a.isConcurrent b].count true = 1

theorem compares (a b : Clock) : a.Compares b where
  dominates := dominates_iff_get
  agrees := agrees_iff_get
  equal := compare_eq_equal_iff.trans agrees_iff_get
  before := compare_eq_before_iff
  after := compare_eq_after_iff
  concurrent := compare_eq_concurrent_iff
  swap := compare_swap
  precedes := precedes_iff.trans compare_eq_before_iff
  isConcurrent := isConcurrent_iff.trans compare_eq_concurrent_iff
  exclusive := count_true_eq_one

/-- **Clocks are ordered by all their counts.**  Comparisons tell how the counts of two clocks stand
to each other, stored or not; domination is a preorder, agreement is the equivalence that belongs to
it, and to precede is its strict order. -/
theorem order_pointwise :
    (∀ a b : Clock, a.Compares b) ∧
    IsPreorder Clock (fun a b => a.dominates b = true) ∧
    Equivalence (fun a b : Clock => a.agrees b = true) ∧
    IsStrictOrder Clock (fun a b => a.precedes b = true) where
  left := compares
  right.left := {
    refl := fun _ => dominates_refl
    trans := fun _ _ _ => dominates_trans }
  right.right.left := ⟨agrees_refl, agrees_symm, agrees_trans⟩
  right.right.right := {
    irrefl := fun _ => Bool.eq_false_iff.1 precedes_irrefl
    trans := fun _ _ _ => precedes_trans }

end Clock

end GossipLedger
