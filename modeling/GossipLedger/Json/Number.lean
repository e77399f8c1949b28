/-!
# The range of numbers

A JSON number may have any number of digits.  It is kept as a coefficient of 64 bits and a power of
ten: `Number.append` takes digits for as long as the coefficient has room for them.

Such a number is worked out with 53 significant bits.  Coefficient and power are rounded, their
product is rounded again, and the number is out of range if that gives `2 ^ 1024` or more
(`Number.isInRange`).  `Number.rounded_eq_self` says that short numbers are not changed by rounding,
`Number.two_mul_rounded` that others are changed by at most half a unit of their last bit.
-/

namespace GossipLedger

namespace Json

namespace Number

/-! ### Coefficients -/

/-- The largest coefficient. -/
def maxCoefficient : Nat :=
  0xFFFFFFFFFFFFFFFF

/-- Appends decimal digits to a coefficient, up to the first for which there is no room.  Gives the
number of digits that are left, too. -/
def append (coefficient : Nat) : List Char → Nat × Nat
  | [] => (coefficient, 0)
  | ch :: rest =>
    let next := 10 * coefficient + (ch.toNat - '0'.toNat)
    if next ≤ maxCoefficient then append next rest else (coefficient, rest.length + 1)

/-! ### Rounding -/

/-- What the last of the `bits` most significant bits of a number stands for; one, if the number has
no more bits than that. -/
def unit (bits n : Nat) : Nat :=
  1 <<< (n.log2 + 1 - bits)

/-- The nearest number with at most `bits` significant bits.  Of two that are equally near, it is
the one whose last bit is zero. -/
def rounded (bits n : Nat) : Nat :=
  let step := unit bits n
  let kept := n / step
  let lost := 2 * (n % step)
  if step < lost ∨ (lost = step ∧ kept % 2 = 1) then (kept + 1) * step else kept * step

theorem rounded_eq_self {bits n : Nat} (h : n.log2 < bits) : rounded bits n = n := by
  have hunit : unit bits n = 1 := by
    rw [unit, Nat.sub_eq_zero_of_le h]
    rfl
  simp [rounded, hunit, Nat.mod_one]

theorem unit_pos {bits n : Nat} : 0 < unit bits n := by
  rw [unit, Nat.one_shiftLeft]
  exact Nat.two_pow_pos _

/-- A number and its rounded value differ by at most half a unit. -/
theorem two_mul_rounded {bits n : Nat} :
    2 * n ≤ 2 * rounded bits n + unit bits n ∧ 2 * rounded bits n ≤ 2 * n + unit bits n := by
  have hlost : n % unit bits n < unit bits n := Nat.mod_lt _ unit_pos
  have hn : n / unit bits n * unit bits n + n % unit bits n = n := by
    rw [Nat.mul_comm, Nat.div_add_mod]
  simp only [rounded]
  split
  · rw [Nat.add_mul, Nat.one_mul]
    omega
  · omega

/-! ### Range -/

/-- Whether a coefficient, scaled by a power of ten, is within the range of numbers. -/
def isInRange (coefficient : Nat) : (exponent : Int) → Bool
  | .negSucc _ => true
  | .ofNat exponent =>
    -- a power that is out of range by itself is not worked out
    coefficient = 0 || (exponent ≤ 308 &&
      rounded 53 (rounded 53 coefficient * rounded 53 (Nat.pow 10 exponent)) < 1 <<< 1024)

end Number

end Json

end GossipLedger
