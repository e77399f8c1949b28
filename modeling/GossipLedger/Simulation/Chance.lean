/-!
# Chance

A simulation decides by random numbers of 53 bits.  A `Probability` is an exact fraction, and an
event occurs when the random number, as a fraction of `2 ^ 53`, is less than it
(`Probability.occurs`): an event of probability zero never does, one of probability one always.

Where random numbers come from is left open: a simulation takes a function that gives the numbers
for each of its decisions.  `Chance.number` is such a function for each seed.
-/

namespace GossipLedger

/-- A probability as a fraction. -/
structure Probability where
  /-- The number of favourable cases. -/
  num : Nat
  /-- The number of cases. -/
  den : Nat
  deriving DecidableEq, Inhabited

namespace Chance

/-- How many random numbers there are. -/
def range : Nat :=
  1 <<< 53

/-- Spreads the bits of a number evenly. -/
def mix (z : UInt64) : UInt64 :=
  let z := (z ^^^ (z >>> 30)) * 0xBF58476D1CE4E5B9
  let z := (z ^^^ (z >>> 27)) * 0x94D049BB133111EB
  z ^^^ (z >>> 31)

/-- The random numbers that belong to a seed. -/
def number (seed : UInt64) (i : Nat) : Nat :=
  (mix (seed + (UInt64.ofNat i + 1) * 0x9E3779B97F4A7C15) >>> 11).toNat

/-- One of the numbers below `bound`. -/
def below (random bound : Nat) : Nat :=
  random % bound

end Chance

namespace Probability

/-- The probability of what never happens. -/
def never : Probability :=
  ⟨0, 1⟩

/-- The probability of what always happens. -/
def always : Probability :=
  ⟨1, 1⟩

/-- A probability in hundredths. -/
def percent (n : Nat) : Probability :=
  ⟨n, 100⟩

/-- Whether an event happens, given a random number. -/
def occurs (p : Probability) (random : Nat) : Bool :=
  random % Chance.range * p.den < p.num * Chance.range

/-- The nearest floating point number. -/
def toFloat (p : Probability) : Float :=
  Float.ofNat p.num / Float.ofNat p.den

theorem not_occurs_never {random : Nat} : ¬ never.occurs random := by
  simp [occurs, never]

theorem occurs_always {random : Nat} : always.occurs random := by
  simpa [occurs, always] using Nat.mod_lt random (by decide : 0 < Chance.range)

end Probability

end GossipLedger
