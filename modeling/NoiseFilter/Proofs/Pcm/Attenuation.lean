import NoiseFilter.Proofs.Binary.Nearest
import NoiseFilter.Proofs.Pcm.Quantization
import NoiseFilter.Stream.Analysis

/-!
# A tenth as loud

A frame without voice is sent a tenth as loud. One tenth is not a value of the format, and neither are most
products with it, so a sample is rounded twice on its way, and once more when it becomes a sample again.
`Sample.Faded` says so in the words of ratios, with nothing in it of how a gain is applied:

| step | rounded to |
|---|---|
| one tenth | the value of the format nearest to it |
| the sample over full scale, times that value | the value nearest to the product |
| the product, times full scale | the nearest whole number, a half away from zero |

The three come to **one** rounding of a tenth of the sample (`Sample.Faded.tenth`). A tenth of a whole number is
never closer to a half than a tenth, unless it is one, and the errors on the way are far smaller than that. Only
at a half they could tell, but the value for one tenth lies above it and so takes every half away from zero,
where it goes anyway. The values that the argument holds against these products are whole numbers over `2 ^ 19`
(`Sample.ratio?_fixed`).
-/

namespace NoiseFilter

open Binary

namespace Sample

/-! ### Values with few places -/

/-- **What has few binary places is a value.** -/
theorem ratio?_fixed {n : ℤ} {places : Nat} (hplaces : places ≤ 23) (h : n.natAbs ≤ 2 ^ places) :
    (Value.ofRatio (decide (n < 0)) n.natAbs (2 ^ places) : Single).ratio? =
      some (n / (2 ^ places : Nat) : ℚ) := by
  have hquanta := quanta_fixed hplaces h
  have hfinite : (Format.single.nearest (n.natAbs * Format.single.unit) (2 ^ places)).val ≠
      Format.single.infinity := by
    intro hinfinite
    have hone : n.natAbs * 2 ^ (149 - places) ≤ Format.single.unit := by
      calc n.natAbs * 2 ^ (149 - places) ≤ 2 ^ places * 2 ^ (149 - places) := Nat.mul_le_mul_right _ h
        _ = 2 ^ 149 := by rw [← Nat.pow_add, Nat.add_sub_cancel' (by omega)]
    rw [← hquanta, hinfinite] at hone
    exact absurd hone (by decide +kernel)
  have hunit : (Format.single.unit : ℚ) = (2 ^ places : Nat) * (2 ^ (149 - places) : Nat) := by
    rw [← Nat.cast_mul, ← Nat.pow_add, Nat.add_sub_cancel' (by omega)]
    rfl
  have hratio : (Format.single.quanta (Format.single.nearest (n.natAbs * Format.single.unit) (2 ^ places)) /
      Format.single.unit : ℚ) = n.natAbs / (2 ^ places : Nat) := by
    rw [hquanta, Nat.cast_mul, hunit, mul_div_mul_right _ _ (Nat.cast_ne_zero.2 (Nat.two_pow_pos _).ne')]
  rw [Value.ofRatio, Value.ratio?_signed _ hfinite, hratio, Nat.cast_natAbs]
  by_cases hneg : n < 0
  · rw [if_pos (decide_eq_true hneg), abs_of_neg hneg, Int.cast_neg, neg_div, neg_neg]
  · rw [if_neg (by rw [decide_eq_true_iff]; exact hneg), abs_of_nonneg (not_lt.1 hneg)]

/-- **The value that a sample stands for**: its ratio to full scale, exactly. -/
def StandsFor (s : ℤ) (x : Single) : Prop := x.ratio? = some (s / 32768 : ℚ)

/-- A sample stands for its value. -/
theorem standsFor_value {s : ℤ} (hlow : -32768 ≤ s) (hhigh : s ≤ 32767) : StandsFor s (value s) :=
  @ratio?_fixed s 15 (by decide) (by omega)

/-! ### One tenth -/

/-- The value for one tenth lies above it, by a fifth of `2 ^ (-27)`. -/
theorem ratio?_noiseGain : Analysis.noiseGain.ratio? = some (1 / 10 + 1 / (5 * 2 ^ 27) : ℚ) := by
  have hquanta : Format.single.quanta (Format.single.nearest (1 * Format.single.unit) 10) =
      13421773 * 2 ^ 122 := by
    decide +kernel
  have hunit : Format.single.unit = 2 ^ 27 * 2 ^ 122 := by decide +kernel
  rw [Analysis.noiseGain, Value.ofRatio, Value.ratio?_signed _ (by decide +kernel), hquanta, hunit,
    if_neg Bool.false_ne_true]
  norm_num

/-- The value for one tenth is the one nearest to it. -/
theorem rounds_noiseGain :
    Value.Rounds (1 / 10) Analysis.noiseGain (1 / 10 + 1 / (5 * 2 ^ 27) : ℚ) := by
  have hrounds := Value.rounds_ofRatio (by decide) (by decide) ratio?_noiseGain
  rwa [if_neg Bool.false_ne_true, Nat.cast_one] at hrounds

/-! ### Three roundings are one -/

/-- **Not told apart by sixteenths**: rounding a number in the format may move it, but not past any of these. -/
def SameSixteenth (p z : ℚ) : Prop :=
  ∀ j : ℤ, -2 ^ 19 ≤ j → j ≤ 2 ^ 19 → ((j / 16 : ℚ) ≤ p → (j / 16 : ℚ) ≤ z) ∧ (p ≤ j / 16 → z ≤ j / 16)

variable {s n : ℤ} {z : ℚ}

/-- Over full scale, a sixteenth is a value, and so rounding does not pass it by. -/
theorem SameSixteenth.of_rounds {x : Single} {q r : ℚ} (h : x.Rounds q r) :
    SameSixteenth (q * 32768) (r * 32768) := by
  intro j hlow hhigh
  have hj := @ratio?_fixed j 19 (by decide) (by omega)
  push_cast at hj
  constructor
  · intro hle
    have := h.le_of_le hj (by linarith)
    linarith
  · intro hle
    have := h.ge_of_ge hj (by linarith)
    linarith

theorem SameSixteenth.neg {p : ℚ} (h : SameSixteenth p z) : SameSixteenth (-p) (-z) := by
  intro j hlow hhigh
  obtain ⟨hbelow, habove⟩ := h (-j) (by omega) (by omega)
  rw [Int.cast_neg, neg_div] at hbelow habove
  exact ⟨fun hle => le_neg.1 (habove (le_neg.1 hle)), fun hle => neg_le.1 (hbelow (neg_le.1 hle))⟩

/-- The product of a sample with the value for one tenth is far from the ends of the range. -/
theorem SameSixteenth.bounds (hs : -32768 ≤ s ∧ s ≤ 32768)
    (h : SameSixteenth (s * (1 / 10 + 1 / (5 * 2 ^ 27))) z) (hround : Rounding.Nearest z n) :
    -4097 ≤ n ∧ n ≤ 4097 := by
  obtain ⟨hbelow, habove⟩ := abs_le.1 hround.near
  have hs' : (-32768 : ℚ) ≤ s ∧ (s : ℚ) ≤ 32768 := by exact_mod_cast hs
  have hz := (h (-65536) (by decide) (by decide)).1 (by push_cast; linarith)
  have hz' := (h 65536 (by decide) (by decide)).2 (by push_cast; linarith)
  push_cast at hz hz'
  have hlow : (-4097 : ℚ) ≤ n := by linarith
  have hhigh : (n : ℚ) ≤ 4097 := by linarith
  exact ⟨by exact_mod_cast hlow, by exact_mod_cast hhigh⟩

/-- **Rounded, the product is not below a tenth of the sample** by more than a half, and if by a half then it is
negative. -/
theorem SameSixteenth.sub_le (hs : -32768 ≤ s ∧ s ≤ 32768)
    (h : SameSixteenth (s * (1 / 10 + 1 / (5 * 2 ^ 27))) z) (hround : Rounding.Nearest z n) :
    (s / 10 - n : ℚ) ≤ 1 / 2 ∧ ((s / 10 - n : ℚ) = 1 / 2 → n < 0) := by
  have hn := h.bounds hs hround
  obtain ⟨-, habove⟩ := abs_le.1 hround.near
  have hs' : (-32768 : ℚ) ≤ s := by exact_mod_cast hs.1
  constructor
  · -- what is further away than a half is further away than nine sixteenths
    by_contra hfar
    have hfar' : 10 * (n : ℚ) + 5 < s := by linarith
    have hmore : 10 * n + 5 + 1 ≤ s := Int.add_one_le_iff.2 (by exact_mod_cast hfar')
    have hmore' : 10 * (n : ℚ) + 5 + 1 ≤ s := by exact_mod_cast hmore
    have hbeyond := (h (16 * n + 9) (by omega) (by omega)).1 (by push_cast; linarith)
    push_cast at hbeyond
    linarith
  · -- the value for one tenth is too large, so a positive product reached the half, which is rounded up
    intro htie
    by_contra hneg
    have hpos : (0 : ℚ) ≤ n := by exact_mod_cast not_lt.1 hneg
    have hhalf := (h (16 * n + 8) (by omega) (by omega)).1 (by push_cast; linarith)
    push_cast at hhalf
    have hz : z = n + 1 / 2 := by linarith
    have haway := hround.away (by rw [hz, add_sub_cancel_left]; norm_num)
    rw [hz, abs_of_nonneg hpos, abs_of_nonneg (by linarith)] at haway
    linarith

/-- **Rounded, the product is a tenth of the sample rounded.** -/
theorem SameSixteenth.nearest (hs : -32768 ≤ s ∧ s ≤ 32768)
    (h : SameSixteenth (s * (1 / 10 + 1 / (5 * 2 ^ 27))) z) (hround : Rounding.Nearest z n) :
    Rounding.Nearest (s / 10) n := by
  have hneg : SameSixteenth ((-s : ℤ) * (1 / 10 + 1 / (5 * 2 ^ 27))) (-z) := by
    rw [Int.cast_neg, neg_mul]
    exact h.neg
  obtain ⟨hle, htie⟩ := h.sub_le hs hround
  obtain ⟨hge, htie'⟩ := hneg.sub_le (by omega) hround.neg
  push_cast at hge htie'
  refine ⟨abs_le.2 ⟨by linarith, hle⟩, fun hhalf => ?_⟩
  rcases (abs_eq (by norm_num)).1 hhalf with hover | hunder
  · have hn : (n : ℚ) ≤ -1 := by exact_mod_cast Int.le_sub_one_iff.2 (htie hover)
    rw [abs_of_nonpos (by linarith), abs_of_nonpos (by linarith)]
    linarith
  · have hn : (1 : ℚ) ≤ n := by
      have := htie' (by linarith)
      exact_mod_cast (by omega : (1 : ℤ) ≤ n)
    rw [abs_of_nonneg (by linarith), abs_of_nonneg (by linarith)]
    linarith

/-! ### A sample without voice -/

/-- **A sample a tenth as loud**, in the words of ratios. -/
structure Faded (s n : ℤ) : Prop where
  /-- One tenth is rounded to a value, its product with the sample over full scale is, and that is quantized. -/
  product : ∃ (tenth x : Single) (g r : ℚ),
    tenth.Rounds (1 / 10) g ∧ x.Rounds (s / 32768 * g) r ∧ Quantizes x n
  /-- It is a tenth of the sample, rounded once. -/
  tenth : Rounding.Nearest (s / 10) n

/-- There is one sample that is a tenth as loud. -/
theorem Faded.unique {m : ℤ} (hm : Faded s m) (hn : Faded s n) : m = n :=
  hm.tenth.unique hn.tenth

/-- What is finite is rounded to a whole number, and that is held in the range of the wire. -/
theorem Quantizes.exists_nearest {x : Single} {r : ℚ} (h : Quantizes x n) (hr : x.ratio? = some r) :
    ∃ m, Rounding.Nearest (r * 32768) m ∧ n = max (-32768) (min m 32767) := by
  cases h with
  | nan => cases hr
  | infinite negative => cases (Value.ratio?_infinite negative).symm.trans hr
  | finite hq hround =>
    obtain rfl := Option.some.inj (hr.symm.trans hq)
    exact ⟨_, hround, rfl⟩

/-- A product between minus one and one is finite. -/
theorem exists_ratio_mul {x y : Single} {p q : ℚ} (hx : x.ratio? = some p) (hy : y.ratio? = some q)
    (h : |p * q| ≤ 1) : ∃ r, (x.mul y).ratio? = some r := by
  obtain ⟨a, m, rfl, hm, rfl⟩ := Value.ratio?_eq_some.1 hx
  obtain ⟨b, k, rfl, hk, rfl⟩ := Value.ratio?_eq_some.1 hy
  have hunit : (0 : ℚ) < Format.single.unit := Nat.cast_pos.2 Format.single.unit_pos
  have habs : ∀ (a : Bool) (m : Nat),
      |(Value.signedQuanta Format.single a m : ℚ)| = Format.single.quanta m := fun a m => by
    cases a <;> simp [Value.signedQuanta]
  have hproduct : Format.single.quanta m * Format.single.quanta k ≤
      Format.single.unit * Format.single.unit := by
    rw [abs_mul, abs_div, abs_div, habs, habs, abs_of_pos hunit, div_mul_div_comm,
      div_le_one (mul_pos hunit hunit)] at h
    exact_mod_cast h
  have hexcess : Format.single.excess
      (Format.single.quanta m * Format.single.quanta k / Format.single.unit) ≤ 126 := by
    refine Format.excess_le _ (Nat.lt_of_le_of_lt (Nat.div_le_div_right hproduct) ?_)
    rw [Nat.mul_div_cancel _ Format.single.unit_pos]
    decide +kernel
  rw [Value.mul, if_neg (not_or.2 ⟨hm, hk⟩)]
  refine ⟨_, Value.ratio?_signed _ (Format.single.nearest_ne_infinity ?_)⟩
  change _ < 256
  omega

/-- **A sample times the gain is a tenth as loud.** -/
theorem faded_quantize (hlow : -32768 ≤ s) (hhigh : s ≤ 32767) :
    Faded s (quantize ((value s).mul Analysis.noiseGain)) := by
  have hvalue := standsFor_value hlow hhigh
  have hs : (-32768 : ℚ) ≤ s ∧ (s : ℚ) ≤ 32767 := ⟨by exact_mod_cast hlow, by exact_mod_cast hhigh⟩
  obtain ⟨r, hr⟩ := exists_ratio_mul hvalue ratio?_noiseGain
    (abs_le.2 ⟨by linarith, by linarith⟩)
  have hrounds := Value.rounds_mul (by decide) hvalue ratio?_noiseGain hr
  have hquantizes := quantizes_quantize ((value s).mul Analysis.noiseGain)
  refine ⟨⟨_, _, _, _, rounds_noiseGain, hrounds, hquantizes⟩, ?_⟩
  have hsame := SameSixteenth.of_rounds hrounds
  rw [mul_right_comm, div_mul_cancel₀ _ (by norm_num)] at hsame
  have hrange : -32768 ≤ s ∧ s ≤ 32768 := by omega
  obtain ⟨m, hround, hm⟩ := hquantizes.exists_nearest hr
  -- a tenth of the range is left in it
  have hbounds := hsame.bounds hrange hround
  rw [hm, min_eq_left (by omega), max_eq_right (by omega)]
  exact hsame.nearest hrange hround

end Sample

/-! ### Frames -/

/-- The values of a decoded frame are its samples over full scale, exactly. -/
theorem WireFrame.standsFor_decode (frame : WireFrame) :
    List.Forall₂ Sample.StandsFor (Sample.read frame.bytes) frame.decode.samples := by
  simp only [decode]
  rw [List.forall₂_map_right_iff, List.forall₂_same]
  intro s hs
  obtain ⟨hlow, hhigh⟩ := Sample.read_mem hs
  exact Sample.standsFor_value hlow hhigh

/-- The samples of an encoded frame are its values, quantized. -/
theorem Frame.read_encode (frame : Frame) :
    Sample.read frame.encode.bytes = frame.samples.map Sample.quantize := by
  refine Sample.read_spell fun s hs => ?_
  obtain ⟨x, -, rfl⟩ := List.mem_map.1 hs
  exact Sample.quantize_mem x

/-- In the words of ratios, every value of a frame has become its sample. -/
theorem Frame.quantizes_encode (frame : Frame) :
    List.Forall₂ Sample.Quantizes frame.samples (Sample.read frame.encode.bytes) := by
  rw [read_encode, List.forall₂_map_right_iff, List.forall₂_same]
  exact fun x _ => Sample.quantizes_quantize x

/-- **A frame scaled by the gain is the frame a tenth as loud**, sample by sample. -/
theorem WireFrame.faded_scale (frame : WireFrame) :
    List.Forall₂ Sample.Faded (Sample.read frame.bytes)
      (Sample.read (frame.decode.scale Analysis.noiseGain).encode.bytes) := by
  rw [Frame.read_encode]
  simp only [Frame.scale, Frame.map, decode, List.map_map, Function.comp_def]
  rw [List.forall₂_map_right_iff, List.forall₂_same]
  intro s hs
  obtain ⟨hlow, hhigh⟩ := Sample.read_mem hs
  exact Sample.faded_quantize hlow hhigh

end NoiseFilter
