import Mathlib.Algebra.Order.Field.Rat
import Mathlib.Order.Monotone.Basic
import Mathlib.Tactic.Linarith
import NoiseFilter.Proofs.Pcm.Codec

/-!
# Values as ratios

A finite value **is** a rational number, a whole number of quanta over the number of quanta in one
(`Binary.Value.ratio?`). The definitions never go there: they compare the places of patterns and divide
natural numbers. This file says that they might as well have.

* Patterns are ordered as the magnitudes they stand for (`Binary.Format.quanta_strictMono`), since the carry
  out of a full fraction is the next exponent's first magnitude;
* so comparison is comparison of ratios (`Binary.Value.le_iff_ratio_le`), both zeros being the ratio zero.

Infinities have a place in the order and no ratio; what is not a number has neither.
-/

namespace NoiseFilter.Binary

namespace Format

variable (F : Format)

theorem unit_pos : 0 < F.unit := Nat.two_pow_pos _

/-- The magnitude of a pattern taken apart into exponent and fraction. -/
theorem quanta_eq (exponent : Nat) {fraction : Nat} (h : fraction < 2 ^ F.fractionBits) :
    F.quanta (exponent * 2 ^ F.fractionBits + fraction) =
      if exponent = 0 then fraction else (2 ^ F.fractionBits + fraction) * 2 ^ (exponent - 1) := by
  have hdiv : (exponent * 2 ^ F.fractionBits + fraction) / 2 ^ F.fractionBits = exponent := by
    rw [Nat.add_comm, Nat.add_mul_div_right _ _ (Nat.two_pow_pos _), Nat.div_eq_of_lt h,
      Nat.zero_add]
  have hmod : (exponent * 2 ^ F.fractionBits + fraction) % 2 ^ F.fractionBits = fraction := by
    rw [Nat.add_comm, Nat.add_mul_mod_self_right, Nat.mod_eq_of_lt h]
  simp only [quanta, Nat.pow_eq, hdiv, hmod]

/-- **Patterns are ordered as their magnitudes.** -/
theorem quanta_strictMono : StrictMono F.quanta := by
  refine strictMono_nat_of_lt_succ fun pattern => ?_
  have hpos : 0 < 2 ^ F.fractionBits := Nat.two_pow_pos _
  obtain ⟨exponent, hexponent⟩ : ∃ e, pattern / 2 ^ F.fractionBits = e := ⟨_, rfl⟩
  obtain ⟨fraction, hfraction⟩ : ∃ f, pattern % 2 ^ F.fractionBits = f := ⟨_, rfl⟩
  have hlt : fraction < 2 ^ F.fractionBits := hfraction ▸ Nat.mod_lt _ hpos
  have hpattern : pattern = exponent * 2 ^ F.fractionBits + fraction := by
    rw [← hexponent, ← hfraction, Nat.mul_comm, Nat.div_add_mod]
  have hpow : 0 < 2 ^ (exponent - 1) := Nat.two_pow_pos _
  rw [hpattern, quanta_eq F _ hlt]
  by_cases hcarry : fraction + 1 < 2 ^ F.fractionBits
  · -- the exponent stays, and the significand grows by one
    rw [Nat.add_assoc, quanta_eq F _ hcarry]
    by_cases hzero : exponent = 0
    · rw [if_pos hzero, if_pos hzero]
      exact Nat.lt_succ_self _
    · rw [if_neg hzero, if_neg hzero]
      exact Nat.mul_lt_mul_of_pos_right (by omega) hpow
  · -- the fraction was full, so the next pattern is the first of the next exponent
    have hnext : exponent * 2 ^ F.fractionBits + fraction + 1 =
        (exponent + 1) * 2 ^ F.fractionBits + 0 := by
      rw [Nat.add_mul]
      omega
    rw [hnext, quanta_eq F _ hpos, if_neg (Nat.succ_ne_zero _), Nat.add_sub_cancel, Nat.add_zero]
    by_cases hzero : exponent = 0
    · rw [if_pos hzero, hzero, Nat.pow_zero, Nat.mul_one]
      exact hlt
    · have hdouble : 2 ^ exponent = 2 * 2 ^ (exponent - 1) := by
        rw [← Nat.pow_succ']
        congr 1
        omega
      rw [if_neg hzero, hdouble, ← Nat.mul_assoc]
      exact Nat.mul_lt_mul_of_pos_right (by omega) hpow

@[simp] theorem quanta_zero : F.quanta 0 = 0 := by
  simp [quanta]

end Format

namespace Value

variable {F : Format} {x y z : Value F}

/-! ### The order of places -/

/-- Values compare by their places, which both must have. -/
theorem le_iff : x.le y = true ↔ ∃ a b, x.rank? = some a ∧ y.rank? = some b ∧ a ≤ b := by
  rw [le]
  cases x.rank? <;> cases y.rank? <;> simp

/-- **Comparison is transitive.** -/
theorem le_trans (h : x.le y = true) (h' : y.le z = true) : x.le z = true := by
  obtain ⟨a, b, ha, hb, hab⟩ := le_iff.1 h
  obtain ⟨b', c, hb', hc, hbc⟩ := le_iff.1 h'
  obtain rfl : b = b' := Option.some.inj (hb.symm.trans hb')
  exact le_iff.2 ⟨a, c, ha, hc, Int.le_trans hab hbc⟩

/-! ### Ratios -/

/-- **The exact value**, of a value that is finite. -/
def ratio? : Value F → Option ℚ
  | .signed negative magnitude =>
    if magnitude.val = F.infinity then none
    else some (signedQuanta F negative magnitude / F.unit)
  | .nan => none

theorem ratio?_eq_some {q : ℚ} :
    x.ratio? = some q ↔ ∃ negative, ∃ magnitude : Fin (F.infinity + 1),
      x = .signed negative magnitude ∧ magnitude.val ≠ F.infinity ∧
        signedQuanta F negative magnitude / F.unit = q := by
  cases x with
  | nan => simp [ratio?]
  | signed negative magnitude => simp [ratio?]

/-- The ratio of a finite magnitude with a sign. -/
theorem ratio?_signed (negative : Bool) {magnitude : Fin (F.infinity + 1)}
    (h : magnitude.val ≠ F.infinity) : (signed negative magnitude).ratio? =
      some (if negative then -(F.quanta magnitude / F.unit : ℚ) else F.quanta magnitude / F.unit) := by
  rw [ratio?, if_neg h]
  cases negative <;> simp [signedQuanta, neg_div]

@[simp] theorem ratio?_infinite (negative : Bool) : (infinite negative : Value F).ratio? = none := by
  simp [infinite, ratio?, Format.infiniteMagnitude]

/-- **Signed magnitudes are ordered as their places.** -/
theorem signedQuanta_le {a b : Bool} {m n : Nat} :
    signedQuanta F a m ≤ signedQuanta F b n ↔
      (if a then -(m : Int) else m) ≤ if b then -(n : Int) else n := by
  have hle := F.quanta_strictMono.le_iff_le (a := m) (b := n)
  have hge := F.quanta_strictMono.le_iff_le (a := n) (b := m)
  have hm := F.quanta_strictMono.le_iff_le (a := m) (b := 0)
  have hn := F.quanta_strictMono.le_iff_le (a := n) (b := 0)
  rw [F.quanta_zero] at hm hn
  cases a <;> cases b <;> simp only [signedQuanta, if_true, Bool.false_eq_true, if_false] <;> omega

/-- **Comparison is comparison of ratios.** -/
theorem le_iff_ratio_le {p q : ℚ} (hx : x.ratio? = some p) (hy : y.ratio? = some q) :
    x.le y = true ↔ p ≤ q := by
  obtain ⟨a, m, rfl, -, rfl⟩ := ratio?_eq_some.1 hx
  obtain ⟨b, n, rfl, -, rfl⟩ := ratio?_eq_some.1 hy
  have hunit : (0 : ℚ) < F.unit := Nat.cast_pos.2 F.unit_pos
  rw [div_le_div_iff_of_pos_right hunit, Int.cast_le, signedQuanta_le, le]
  exact decide_eq_true_iff

/-! ### Zero and one -/

theorem ratio?_zero (h : F.infinity ≠ 0) : (zero : Value F).ratio? = some 0 := by
  refine ratio?_eq_some.2 ⟨false, F.zeroMagnitude, rfl, h.symm, ?_⟩
  have hquanta : F.quanta F.zeroMagnitude = 0 := F.quanta_zero
  rw [signedQuanta, if_neg Bool.false_ne_true, hquanta]
  simp

/-- One is a value of 32 bits. -/
theorem ratio?_one : (ofNat 1 : Single).ratio? = some 1 := by
  have hunit : Format.single.quanta (Format.single.nearest (1 * Format.single.unit) 1) =
      Format.single.unit := by
    decide +kernel
  refine ratio?_eq_some.2 ⟨false, _, rfl, by decide +kernel, ?_⟩
  rw [signedQuanta, if_neg Bool.false_ne_true, hunit, Int.cast_natCast,
    div_self (Nat.cast_ne_zero.2 (Nat.ne_of_gt Format.single.unit_pos))]

/-! ### Probabilities -/

/-- **A value from zero to one**: a finite number with a ratio in that range. -/
def IsProbability (x : Single) : Prop := ∃ q, x.ratio? = some q ∧ 0 ≤ q ∧ q ≤ 1

/-- A probability is a finite number. -/
theorem IsProbability.isFinite {x : Single} (h : x.IsProbability) : x.isFinite = true := by
  obtain ⟨q, hq, -⟩ := h
  obtain ⟨negative, magnitude, rfl, hfinite, -⟩ := ratio?_eq_some.1 hq
  exact decide_eq_true (Nat.lt_of_le_of_ne (Nat.le_of_lt_succ magnitude.isLt) hfinite)

/-- What lies between zero and one in the order of values is a probability: infinities lie outside, and
what is not a number does not lie anywhere. -/
theorem isProbability_iff {x : Single} :
    x.IsProbability ↔ zero.le x = true ∧ x.le (ofNat 1) = true := by
  have hzero : (zero : Single).ratio? = some 0 := ratio?_zero (by decide)
  constructor
  · rintro ⟨q, hq, hlow, hhigh⟩
    exact ⟨(le_iff_ratio_le hzero hq).2 hlow, (le_iff_ratio_le hq ratio?_one).2 hhigh⟩
  · rintro ⟨hlow, hhigh⟩
    obtain ⟨negative, magnitude⟩ | _ := x
    · have hfinite : magnitude.val ≠ Format.single.infinity := by
        intro hinfinite
        -- an infinity has its place before zero or behind one
        obtain rfl : magnitude = Format.single.infiniteMagnitude := Fin.ext hinfinite
        cases negative
        · exact absurd hhigh (by decide +kernel)
        · exact absurd hlow (by decide +kernel)
      have hx : (signed negative magnitude : Single).ratio? = _ := if_neg hfinite
      exact ⟨_, hx, (le_iff_ratio_le hzero hx).1 hlow, (le_iff_ratio_le hx ratio?_one).1 hhigh⟩
    · exact absurd hlow Bool.false_ne_true

end Value

end NoiseFilter.Binary
