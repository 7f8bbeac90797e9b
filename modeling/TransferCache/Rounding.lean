/-!
# Rounding to a grid

The quotient of two numbers rounded to the nearest whole number, where a tie goes to the even
neighbour, and the double-precision number nearest to a whole number, which is the same rule applied
to its 53 leading binary digits.
-/

namespace TransferCache

/-- The whole number nearest to `numerator / denominator`; of two equally near, the even one. -/
def roundedQuotient (numerator denominator : Nat) : Nat :=
  let quotient := numerator / denominator
  let excess := 2 * (numerator % denominator)
  if excess < denominator then quotient
  else if denominator < excess then quotient + 1
  else quotient + quotient % 2

/-- The number with at most 53 significant binary digits that is nearest to `n`; of two equally
near, the one whose last such digit is zero. -/
def nearestDouble (n : Nat) : Nat :=
  let spacing := 1 <<< (n.log2 - 52)
  roundedQuotient n spacing * spacing

/-- The least number that is rounded to infinity in double precision: half a step beyond the largest
finite one. -/
def doubleOverflow : Nat := (1 <<< 1024) - (1 <<< 970)

/-- A rounded quotient lies within half a unit of the quotient. -/
theorem roundedQuotient_near (numerator : Nat) {denominator : Nat} (positive : 0 < denominator) :
    2 * (roundedQuotient numerator denominator * denominator) ≤ 2 * numerator + denominator ∧
      2 * numerator ≤ 2 * (roundedQuotient numerator denominator * denominator) + denominator := by
  have whole : denominator * (numerator / denominator) + numerator % denominator = numerator :=
    Nat.div_add_mod numerator denominator
  have small : numerator % denominator < denominator := Nat.mod_lt _ positive
  rw [Nat.mul_comm] at whole
  unfold roundedQuotient
  generalize numerator / denominator = quotient at whole ⊢
  generalize numerator % denominator = remainder at whole small ⊢
  dsimp only
  split
  · omega
  · split
    · rw [Nat.add_mul, Nat.one_mul]
      omega
    · rcases Nat.mod_two_eq_zero_or_one quotient with even | odd
      · rw [even, Nat.add_zero]
        omega
      · rw [odd, Nat.add_mul, Nat.one_mul]
        omega

end TransferCache
