/-!
# Rounding a quotient to a whole number

Everything this library rounds is a ratio of two natural numbers, so rounding is done once and
exactly, and the only decision left is where a half goes:

* `NoiseFilter.Rounding.halfEven` – to the nearest whole number, a half to the **even** neighbour;
* `NoiseFilter.Rounding.halfUp` – to the nearest whole number, a half **upwards** (away from zero,
  as both operands are natural numbers).
-/

namespace NoiseFilter.Rounding

/-- **Nearest, ties to even**: the whole number nearest to `num / den`; of two that are equally
near, the even one. -/
def halfEven (num den : Nat) : Nat :=
  let whole := num / den
  let rest := 2 * (num % den)
  if rest < den then whole else if den < rest then whole + 1 else whole + whole % 2

/-- **Nearest, ties up**: the whole number nearest to `num / den`; of two that are equally near, the
larger one. -/
def halfUp (num den : Nat) : Nat :=
  (2 * num + den) / (2 * den)

/-! ### Whole quotients need no rounding -/

/-- A multiple of the divisor is its own rounding. -/
theorem halfEven_mul (n den : Nat) (h : 0 < den) : halfEven (n * den) den = n := by
  simp [halfEven, Nat.mul_div_cancel n h, h]

/-- A multiple of the divisor is its own rounding. -/
theorem halfUp_mul (n den : Nat) (h : 0 < den) : halfUp (n * den) den = n := by
  unfold halfUp
  have e : 2 * (n * den) + den = den + 2 * den * n := by
    rw [Nat.mul_comm n den, Nat.mul_assoc]; omega
  rw [e, Nat.add_mul_div_left _ _ (by omega), Nat.div_eq_of_lt (by omega), Nat.zero_add]

end NoiseFilter.Rounding
