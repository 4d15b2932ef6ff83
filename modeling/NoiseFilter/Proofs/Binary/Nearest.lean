import Mathlib.Algebra.Order.Field.Basic
import Mathlib.Algebra.Order.Ring.Abs
import Mathlib.Tactic.FieldSimp
import Mathlib.Tactic.Linarith
import Mathlib.Tactic.Ring
import NoiseFilter.Proofs.Binary.Exact

/-!
# Rounding to a format is rounding to the nearest

Every operation of a format rounds once, and this file says what that means. A ratio **rounds** to a value
(`Binary.Value.Rounds`) if no other finite value is nearer, and if of two that are equally near it is the one
whose last bit is zero. Nothing in that speaks of significands or shifts.

The argument is about two patterns. The quotient is cut to a significand, and that pattern and the next one have
the ratio between them (`Binary.Format.quanta_bracket`). As patterns are ordered as their magnitudes, every
other one lies beyond one of the two, so the nearer of these is the nearest of all.

* `Binary.Value.rounds_ofRatio` and `Binary.Value.rounds_mul`: a ratio of whole numbers and a product of two
  values round to what the format makes of them, unless that is infinite.
* `Binary.Value.Rounds.le_of_le`: rounding does not pass a value by.
-/

namespace NoiseFilter

namespace Rounding

/-- **Half to even**, case by case: the whole part of a quotient or the number after it, whichever is nearer,
and if both are equally near the even one. -/
theorem halfEven_cases (num den : Nat) :
    (halfEven num den = num / den ∧ 2 * (num % den) ≤ den ∨
        halfEven num den = num / den + 1 ∧ den ≤ 2 * (num % den)) ∧
      (2 * (num % den) = den → halfEven num den % 2 = 0) := by
  simp only [halfEven]
  split
  · omega
  · split
    · omega
    · rcases Nat.mod_two_eq_zero_or_one (num / den) with h | h <;> omega

/-- Of two numbers on both sides of a ratio the nearer one is nearer than all that lies beyond the two. -/
theorem abs_sub_le_of_bracket {a b q v : ℚ} (ha : a ≤ q) (hb : q ≤ b) (hv : v ≤ a ∨ b ≤ v) :
    (q - a ≤ b - q → |q - a| ≤ |q - v| ∧ (v ≠ a → |q - v| = |q - a| → q - a = b - q)) ∧
      (b - q ≤ q - a → |q - b| ≤ |q - v| ∧ (v ≠ b → |q - v| = |q - b| → q - a = b - q)) := by
  rw [abs_of_nonneg (sub_nonneg.2 ha), abs_of_nonpos (sub_nonpos.2 hb), neg_sub]
  rcases hv with hlow | hhigh
  · rw [abs_of_nonneg (sub_nonneg.2 (hlow.trans ha))]
    grind
  · rw [abs_of_nonpos (sub_nonpos.2 (hb.trans hhigh)), neg_sub]
    grind

/-- A ratio lies between two multiples of a `power`. The lower one is not the further of the two exactly if the
rest that it was cut off with is at most a half, and the upper one if it is at least that. -/
theorem bracket_ratio (num : Nat) {den power : Nat} (hden : 0 < den) (hpower : 0 < power) :
    ((num / (den * power) : Nat) * power ≤ (num / den : ℚ) ∧
        (num / den : ℚ) ≤ (num / (den * power) + 1 : Nat) * power) ∧
      ((num / den : ℚ) - (num / (den * power) : Nat) * power ≤
          (num / (den * power) + 1 : Nat) * power - (num / den : ℚ) ↔
        2 * (num % (den * power)) ≤ den * power) ∧
      ((num / (den * power) + 1 : Nat) * power - (num / den : ℚ) ≤
          (num / den : ℚ) - (num / (den * power) : Nat) * power ↔
        den * power ≤ 2 * (num % (den * power))) := by
  have hdenq : (0 : ℚ) < den := Nat.cast_pos.2 hden
  have hrest := Nat.mod_lt num (Nat.mul_pos hden hpower)
  have hsplit : (num : ℚ) = den * power * (num / (den * power) : Nat) + (num % (den * power) : Nat) := by
    exact_mod_cast (Nat.div_add_mod num (den * power)).symm
  generalize num / (den * power) = whole at *
  generalize num % (den * power) = rest at *
  have hbelow : (num / den : ℚ) - whole * power = rest / den := by
    rw [hsplit]
    field_simp
    ring
  have habove : (whole + 1 : Nat) * power - (num / den : ℚ) = (den * power - rest) / den := by
    rw [hsplit]
    push_cast
    field_simp
    ring
  refine ⟨⟨sub_nonneg.1 ?_, sub_nonneg.1 ?_⟩, ?_, ?_⟩
  · rw [hbelow]
    exact div_nonneg (Nat.cast_nonneg _) hdenq.le
  · rw [habove]
    exact div_nonneg (sub_nonneg.2 (by exact_mod_cast hrest.le)) hdenq.le
  · rw [hbelow, habove, div_le_div_iff_of_pos_right hdenq, le_sub_iff_add_le, ← two_mul]
    norm_cast
  · rw [hbelow, habove, div_le_div_iff_of_pos_right hdenq, sub_le_iff_le_add, ← two_mul]
    norm_cast

/-- **Rounded to a multiple of a `power`**, a ratio has gone to the nearer of the two around it, and if both were
equally near to the even one. So nothing beyond the two is nearer. -/
theorem halfEven_near (num : Nat) {den power : Nat} (hden : 0 < den) (hpower : 0 < power) {v : ℚ}
    (hv : v ≤ (num / (den * power) : Nat) * power ∨ (num / (den * power) + 1 : Nat) * power ≤ v) :
    |(num / den : ℚ) - halfEven num (den * power) * power| ≤ |(num / den : ℚ) - v| ∧
      (v ≠ halfEven num (den * power) * power →
        |(num / den : ℚ) - v| = |(num / den : ℚ) - halfEven num (den * power) * power| →
          halfEven num (den * power) % 2 = 0) := by
  obtain ⟨⟨hlow, hhigh⟩, hdown, hup⟩ := bracket_ratio num hden hpower
  obtain ⟨hlower, hupper⟩ := abs_sub_le_of_bracket hlow hhigh hv
  obtain ⟨hcases, htie⟩ := halfEven_cases num (den * power)
  have heven := fun h => htie (Nat.le_antisymm (hdown.1 (le_of_eq h)) (hup.1 (ge_of_eq h)))
  rcases hcases with ⟨hround, hle⟩ | ⟨hround, hge⟩ <;> rw [hround] at heven ⊢
  · exact ⟨(hlower (hdown.2 hle)).1, fun hne h => heven ((hlower (hdown.2 hle)).2 hne h)⟩
  · exact ⟨(hupper (hup.2 hge)).1, fun hne h => heven ((hupper (hup.2 hge)).2 hne h)⟩

end Rounding

namespace Binary

namespace Format

variable (F : Format) {num den : Nat}

/-- **A ratio lies between two patterns that follow each other**, the lower one cut off from it. -/
theorem quanta_bracket (num den : Nat) :
    F.quanta (F.excess (num / den) * 2 ^ F.fractionBits + num / (den * 2 ^ F.excess (num / den))) =
        num / (den * 2 ^ F.excess (num / den)) * 2 ^ F.excess (num / den) ∧
      F.quanta (F.excess (num / den) * 2 ^ F.fractionBits + num / (den * 2 ^ F.excess (num / den)) + 1) =
        (num / (den * 2 ^ F.excess (num / den)) + 1) * 2 ^ F.excess (num / den) := by
  have hlt := F.significand_lt (num / den)
  have hle := F.le_significand (n := num / den)
  rw [Nat.div_div_eq_div_mul] at hlt hle
  generalize num / (den * 2 ^ F.excess (num / den)) = whole at hlt hle ⊢
  generalize F.excess (num / den) = shift at hle ⊢
  refine ⟨F.quanta_significand hlt hle, ?_⟩
  rw [Nat.add_assoc]
  rcases Nat.lt_or_ge (whole + 1) (2 ^ (F.fractionBits + 1)) with hmore | hfull
  · exact F.quanta_significand hmore fun hshift => Nat.le_succ_of_le (hle hshift)
  · -- the next significand is a power of two, and the exponent takes the carry
    have hwhole : whole + 1 = 2 ^ F.fractionBits * 2 := by
      rw [← Nat.pow_succ]
      omega
    have hcarry : shift * 2 ^ F.fractionBits + 2 ^ F.fractionBits * 2 =
        (shift + 1) * 2 ^ F.fractionBits + 2 ^ F.fractionBits := by
      rw [Nat.add_mul]
      omega
    rw [hwhole, hcarry, F.quanta_significand (Nat.pow_lt_pow_succ Nat.one_lt_two) fun _ => Nat.le_refl _,
      Nat.pow_succ, Nat.mul_comm (2 ^ shift) 2, Nat.mul_assoc]

/-- A ratio that is well below the largest magnitude rounds to a finite one. -/
theorem nearest_ne_infinity (h : F.excess (num / den) + 3 < 2 ^ F.exponentBits) :
    (F.nearest num den).val ≠ F.infinity := by
  have hlt := F.significand_lt (num / den)
  rw [Nat.div_div_eq_div_mul, Nat.pow_succ] at hlt
  have hround := (Rounding.halfEven_cases num (den * 2 ^ F.excess (num / den))).1
  have hpattern : F.excess (num / den) * 2 ^ F.fractionBits +
      Rounding.halfEven num (den * 2 ^ F.excess (num / den)) < F.infinity := by
    have hpos : 0 < 2 ^ F.fractionBits := Nat.two_pow_pos _
    calc F.excess (num / den) * 2 ^ F.fractionBits +
          Rounding.halfEven num (den * 2 ^ F.excess (num / den))
        < F.excess (num / den) * 2 ^ F.fractionBits + 3 * 2 ^ F.fractionBits := by omega
      _ = (F.excess (num / den) + 3) * 2 ^ F.fractionBits := (Nat.add_mul ..).symm
      _ ≤ (2 ^ F.exponentBits - 1) * 2 ^ F.fractionBits := Nat.mul_le_mul_right _ (by omega)
  rw [nearest_val, Nat.min_eq_left hpattern.le]
  exact hpattern.ne

/-- **The nearest magnitude is nearest**: no other is nearer to the ratio, and if another is as near then the
last bit of this one is zero. -/
theorem nearest_near (hden : 0 < den) (hbits : F.fractionBits ≠ 0)
    (hfinite : (F.nearest num den).val ≠ F.infinity) (pattern : Nat) :
    |(num / den : ℚ) - F.quanta (F.nearest num den)| ≤ |(num / den : ℚ) - F.quanta pattern| ∧
      ((F.quanta pattern : ℚ) ≠ F.quanta (F.nearest num den) →
        |(num / den : ℚ) - F.quanta pattern| = |(num / den : ℚ) - F.quanta (F.nearest num den)| →
          (F.nearest num den).val % 2 = 0) := by
  have hval : (F.nearest num den).val = F.excess (num / den) * 2 ^ F.fractionBits +
      Rounding.halfEven num (den * 2 ^ F.excess (num / den)) := by
    rw [nearest_val] at hfinite ⊢
    omega
  have heven : F.excess (num / den) * 2 ^ F.fractionBits % 2 = 0 := by
    obtain ⟨bits, hsucc⟩ := Nat.exists_eq_succ_of_ne_zero hbits
    rw [hsucc, Nat.pow_succ, ← Nat.mul_assoc, Nat.mul_mod_left]
  have hpower : 0 < 2 ^ F.excess (num / den) := Nat.two_pow_pos _
  obtain ⟨hlow, hhigh⟩ := F.quanta_bracket num den
  have hquanta : F.quanta (F.nearest num den) =
      Rounding.halfEven num (den * 2 ^ F.excess (num / den)) * 2 ^ F.excess (num / den) := by
    rw [hval]
    rcases (Rounding.halfEven_cases num (den * 2 ^ F.excess (num / den))).1 with ⟨h, -⟩ | ⟨h, -⟩
    · rw [h, hlow]
    · rw [h, ← Nat.add_assoc, hhigh]
  have hbeyond : (F.quanta pattern : ℚ) ≤
        (num / (den * 2 ^ F.excess (num / den)) : Nat) * (2 ^ F.excess (num / den) : Nat) ∨
      (num / (den * 2 ^ F.excess (num / den)) + 1 : Nat) * (2 ^ F.excess (num / den) : Nat) ≤
        (F.quanta pattern : ℚ) := by
    rw [← Nat.cast_mul, ← Nat.cast_mul, ← hlow, ← hhigh, Nat.cast_le, Nat.cast_le,
      F.quanta_strictMono.le_iff_le, F.quanta_strictMono.le_iff_le]
    exact Nat.lt_or_ge _ _ |>.symm
  obtain ⟨hnear, htie⟩ := Rounding.halfEven_near num hden hpower hbeyond
  rw [hquanta, Nat.cast_mul]
  exact ⟨hnear, fun hne h => by rw [hval, Nat.add_mod, heven, htie hne h]⟩

end Format

namespace Value

variable {F : Format} {x y : Value F} {p q r s : ℚ}

/-- **The last bit of a value is zero.** -/
def IsEven : Value F → Prop
  | .signed _ magnitude => magnitude.val % 2 = 0
  | .nan => False

/-- **A ratio rounds to a value**: no finite value is nearer to it, and if another one is as near then this one
is even. -/
structure Rounds (q : ℚ) (x : Value F) (r : ℚ) : Prop where
  ratio : x.ratio? = some r
  near : ∀ {y : Value F} {s}, y.ratio? = some s → |q - r| ≤ |q - s|
  even : ∀ {y : Value F} {s}, y.ratio? = some s → s ≠ r → |q - s| = |q - r| → x.IsEven

/-- **Rounding does not pass a value by**, on the way down. -/
theorem Rounds.le_of_le (h : Rounds q x r) (hy : y.ratio? = some s) (hle : s ≤ q) : s ≤ r := by
  by_contra hlt
  have hnear := h.near hy
  rw [abs_of_nonneg (by linarith), abs_of_nonneg (by linarith)] at hnear
  linarith

/-- Nor on the way up. -/
theorem Rounds.ge_of_ge (h : Rounds q x r) (hy : y.ratio? = some s) (hge : q ≤ s) : r ≤ s := by
  by_contra hlt
  have hnear := h.near hy
  rw [abs_of_nonpos (by linarith), abs_of_nonpos (by linarith)] at hnear
  linarith

/-! ### Signs -/

/-- The sign of a value is that of its ratio. -/
theorem ratio?_neg (x : Value F) : x.neg.ratio? = x.ratio?.map Neg.neg := by
  obtain ⟨negative, magnitude⟩ | _ := x
  · by_cases hinfinite : magnitude.val = F.infinity
    · rw [neg, ratio?, ratio?, if_pos hinfinite, if_pos hinfinite]
      rfl
    · rw [neg, ratio?_signed _ hinfinite, ratio?_signed _ hinfinite]
      cases negative <;> simp
  · rfl

/-- **Rounding does not look at the sign.** -/
theorem Rounds.neg (h : Rounds q x r) : Rounds (-q) x.neg (-r) := by
  have hmirror : ∀ s : ℚ, |-q - s| = |q - -s| := fun s => by
    rw [← abs_neg, neg_sub, sub_neg_eq_add, sub_neg_eq_add, add_comm]
  have hratio : ∀ {y : Value F} {s : ℚ}, y.ratio? = some s → y.neg.ratio? = some (-s) :=
    fun {y s} hy => by rw [ratio?_neg, hy]; rfl
  refine ⟨hratio h.ratio, fun {y s} hy => ?_, fun {y s} hy hne heq => ?_⟩
  · rw [hmirror, hmirror, neg_neg]
    exact h.near (hratio hy)
  · rw [hmirror, hmirror, neg_neg] at heq
    have heven := h.even (hratio hy) (fun hs => hne (by rw [← hs, neg_neg])) heq
    obtain ⟨negative, magnitude⟩ | _ := x
    · exact heven
    · exact heven

/-! ### Rounding as the format does it -/

/-- What is finite has at least the distance from a positive ratio that some finite magnitude has, and is that
magnitude if it has the same. -/
theorem exists_magnitude (hq : 0 ≤ q) (hy : y.ratio? = some s) :
    ∃ pattern, |q - F.quanta pattern / F.unit| ≤ |q - s| ∧
      (|q - F.quanta pattern / F.unit| = |q - s| → s = F.quanta pattern / F.unit) := by
  obtain ⟨negative, magnitude, rfl, hfinite, -⟩ := ratio?_eq_some.1 hy
  rw [ratio?_signed _ hfinite, Option.some.injEq] at hy
  have hsize : (0 : ℚ) ≤ F.quanta magnitude / F.unit :=
    div_nonneg (Nat.cast_nonneg _) (Nat.cast_nonneg _)
  cases negative
  · exact ⟨magnitude, le_of_eq (by rw [← hy]; rfl), fun _ => hy.symm⟩
  · -- on the other side of zero, so zero is at least as near
    rw [if_pos rfl] at hy
    refine ⟨0, ?_⟩
    rw [F.quanta_zero, Nat.cast_zero, zero_div, sub_zero, abs_of_nonneg hq,
      abs_of_nonneg (by linarith)]
    exact ⟨by linarith, fun h => by linarith⟩

/-- **The nearest magnitude is what a positive ratio rounds to.** -/
theorem rounds_nearest {num den : Nat} (hden : 0 < den) (hbits : F.fractionBits ≠ 0)
    (hfinite : (F.nearest num den).val ≠ F.infinity) :
    Rounds (num / den / F.unit) (signed false (F.nearest num den))
      (F.quanta (F.nearest num den) / F.unit) := by
  have hunit : (0 : ℚ) < F.unit := Nat.cast_pos.2 F.unit_pos
  have hq : (0 : ℚ) ≤ num / den / F.unit :=
    div_nonneg (div_nonneg (Nat.cast_nonneg _) (Nat.cast_nonneg _)) hunit.le
  have hdistance : ∀ pattern, |(num / den / F.unit : ℚ) - F.quanta pattern / F.unit| =
      |(num / den : ℚ) - F.quanta pattern| / F.unit := fun pattern => by
    rw [← sub_div, abs_div, abs_of_pos hunit]
  refine ⟨ratio?_signed false hfinite, fun {y s} hy => ?_, fun {y s} hy hne heq => ?_⟩
  · obtain ⟨pattern, hle, -⟩ := exists_magnitude hq hy
    refine LE.le.trans ?_ hle
    rw [hdistance, hdistance, div_le_div_iff_of_pos_right hunit]
    exact (F.nearest_near hden hbits hfinite pattern).1
  · obtain ⟨pattern, hle, hsame⟩ := exists_magnitude hq hy
    obtain ⟨hnear, heven⟩ := F.nearest_near hden hbits hfinite pattern
    rw [heq, hdistance, hdistance, div_le_div_iff_of_pos_right hunit] at hle
    have htie := le_antisymm hle hnear
    have hs := hsame (by rw [heq, hdistance, hdistance, htie])
    refine heven (fun h => hne ?_) htie
    rw [hs, h]

/-- With a sign, what the format makes of a ratio is what the ratio rounds to, unless that is infinite. -/
theorem rounds_signed {negative : Bool} {num den : Nat} (hden : 0 < den) (hbits : F.fractionBits ≠ 0)
    (h : (signed negative (F.nearest num den)).ratio? = some r) :
    Rounds (if negative then -(num / den / F.unit) else num / den / F.unit)
      (signed negative (F.nearest num den)) r := by
  have hfinite : (F.nearest num den).val ≠ F.infinity := fun hinfinite => by
    rw [ratio?, if_pos hinfinite] at h
    cases h
  rw [ratio?_signed _ hfinite, Option.some.injEq] at h
  subst h
  cases negative
  · exact rounds_nearest hden hbits hfinite
  · exact (rounds_nearest hden hbits hfinite).neg

/-- **A ratio of whole numbers is rounded once.** -/
theorem rounds_ofRatio {negative : Bool} {num den : Nat} (hden : 0 < den) (hbits : F.fractionBits ≠ 0)
    (h : (ofRatio negative num den : Value F).ratio? = some r) :
    Rounds (if negative then -(num / den : ℚ) else num / den) (ofRatio negative num den : Value F) r := by
  have hunit : (F.unit : ℚ) ≠ 0 := Nat.cast_ne_zero.2 F.unit_pos.ne'
  have hrounds := rounds_signed hden hbits h
  rwa [Nat.cast_mul, div_right_comm, mul_div_assoc, div_self hunit, mul_one] at hrounds

/-- **A product is rounded once.** -/
theorem rounds_mul (hbits : F.fractionBits ≠ 0) (hx : x.ratio? = some p) (hy : y.ratio? = some q)
    (h : (x.mul y).ratio? = some r) : Rounds (p * q) (x.mul y) r := by
  obtain ⟨a, m, rfl, hm, -⟩ := ratio?_eq_some.1 hx
  obtain ⟨b, n, rfl, hn, -⟩ := ratio?_eq_some.1 hy
  rw [ratio?_signed _ hm, Option.some.injEq] at hx
  rw [ratio?_signed _ hn, Option.some.injEq] at hy
  rw [mul, if_neg (not_or.2 ⟨hm, hn⟩)] at h ⊢
  have hproduct : p * q = if a != b then -((F.quanta m * F.quanta n : Nat) / F.unit / F.unit : ℚ)
      else (F.quanta m * F.quanta n : Nat) / F.unit / F.unit := by
    rw [← hx, ← hy, Nat.cast_mul]
    cases a <;> cases b <;> simp <;> ring
  rw [hproduct]
  exact rounds_signed F.unit_pos hbits h

end Value

end Binary

end NoiseFilter
