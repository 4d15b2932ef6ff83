import Mathlib.Algebra.Order.Field.Basic
import Mathlib.Algebra.Order.Ring.Abs
import Mathlib.Tactic.Ring
import NoiseFilter.Proofs.Binary.Exact

/-!
# Quantization rounds once, and saturates

A value is quantized by one exact rounding: to the whole number nearest to its ratio times 32768, a half
away from zero, and then to the nearest sample of the wire. `Sample.Quantizes` says that in the words of
ratios, with no pattern and no quantum in it, and `Sample.quantizes_iff` that `Sample.quantize` does it.

What follows is what makes quantization safe to put behind an engine:

* it never decreases where values do not (`Sample.quantize_mono`), so loud stays loud;
* it never wraps: beyond the range of the wire it stays at its ends, as infinities do.

The product with 32768 may be taken in the format first (`Sample.quantizeScaled`). It is exact unless it is
infinite, and then it was out of range anyway, so that way comes to the same sample.
-/

namespace NoiseFilter

open Binary

/-! ### Nearest whole numbers -/

/-- **The whole number nearest to a ratio**, and of two that are equally near the one further from zero. -/
structure Rounding.Nearest (q : ℚ) (n : ℤ) : Prop where
  near : |q - n| ≤ 1 / 2
  away : |q - n| = 1 / 2 → |q| < |(n : ℚ)|

namespace Rounding

/-- Rounding upwards, by bounds on the twofold. -/
theorem halfUp_bounds (num : Nat) {den : Nat} (h : 0 < den) :
    2 * den * halfUp num den ≤ 2 * num + den ∧ 2 * num + den < 2 * den * (halfUp num den + 1) := by
  have hpos : 0 < 2 * den := by omega
  exact ⟨Nat.mul_div_le _ _, Nat.lt_mul_div_succ _ hpos⟩

theorem halfUp_mono {num num' : Nat} (den : Nat) (h : num ≤ num') : halfUp num den ≤ halfUp num' den :=
  Nat.div_le_div_right (by omega)

/-- Rounding to even goes up or leaves the whole part. -/
theorem div_le_halfEven (num den : Nat) : num / den ≤ halfEven num den := by
  simp only [halfEven]
  split
  · exact Nat.le_refl _
  · split <;> omega

/-- **A ratio without a sign** is rounded to the nearest. -/
theorem nearest_halfUp (num : Nat) {den : Nat} (h : 0 < den) :
    Nearest (num / den) (halfUp num den) := by
  obtain ⟨hlow, hhigh⟩ := halfUp_bounds num h
  have hden : (0 : ℚ) < den := Nat.cast_pos.2 h
  obtain ⟨q, hq⟩ : ∃ q : ℚ, (num : ℚ) / den = q := ⟨_, rfl⟩
  obtain ⟨k, hk⟩ : ∃ k, halfUp num den = k := ⟨_, rfl⟩
  have hnum : (num : ℚ) = q * den := by rw [← hq, div_mul_cancel₀ _ hden.ne']
  rw [hk] at hlow hhigh
  have hlow' : (k : ℚ) - 1 / 2 ≤ q := by
    have : (2 * den * k : ℚ) ≤ 2 * num + den := by exact_mod_cast hlow
    rw [hnum] at this
    nlinarith
  have hhigh' : q < k + 1 / 2 := by
    have : (2 * num + den : ℚ) < 2 * den * (k + 1) := by exact_mod_cast hhigh
    rw [hnum] at this
    nlinarith
  have hpos : 0 ≤ q := hq ▸ div_nonneg (Nat.cast_nonneg _) (Nat.cast_nonneg _)
  rw [hq, hk]
  constructor
  · rw [Int.cast_natCast, abs_le]
    constructor <;> linarith
  · intro htie
    -- a half was rounded up, so the whole number is the larger of the two
    rw [Int.cast_natCast] at htie ⊢
    rw [abs_of_nonneg hpos, abs_of_nonneg (Nat.cast_nonneg k)]
    rcases abs_cases (q - k) with ⟨habs, -⟩ | ⟨habs, -⟩ <;> linarith

/-- Ratios are rounded like their opposites. -/
theorem Nearest.neg {q : ℚ} {n : ℤ} (h : Nearest q n) : Nearest (-q) (-n) := by
  have hdiff : |(-q) - ((-n : ℤ) : ℚ)| = |q - n| := by
    rw [← abs_neg (q - n)]
    congr 1
    push_cast
    ring
  exact ⟨hdiff ▸ h.near, fun htie => by
    rw [Int.cast_neg, abs_neg, abs_neg]
    exact h.away (hdiff ▸ htie)⟩

/-- **There is one nearest whole number.** -/
theorem Nearest.unique {q : ℚ} {m n : ℤ} (hm : Nearest q m) (hn : Nearest q n) : m = n := by
  -- two of them would lie on both sides of a half, and only one of those is further from zero
  have key : ∀ {m n : ℤ}, Nearest q m → Nearest q n → ¬ m < n := by
    intro m n hm hn hlt
    have hstep : (m : ℚ) + 1 ≤ n := by exact_mod_cast hlt
    have hm' := abs_le.1 hm.near
    have hn' := abs_le.1 hn.near
    have hq : q = m + 1 / 2 := by linarith
    have hn1 : (n : ℚ) = m + 1 := by linarith
    have haway := hm.away (by rw [hq]; norm_num)
    have haway' := hn.away (by rw [hq, hn1]; norm_num)
    rw [hq] at haway haway'
    rw [hn1] at haway'
    rcases le_or_gt 0 m with hpos | hneg
    · have : (0 : ℚ) ≤ m := by exact_mod_cast hpos
      rw [abs_of_nonneg this, abs_of_nonneg (by linarith)] at haway
      linarith
    · have : (m : ℚ) + 1 ≤ 0 := by exact_mod_cast hneg
      rw [abs_of_nonpos this, abs_of_nonpos (by linarith)] at haway'
      linarith
  exact le_antisymm (not_lt.1 (key hn hm)) (not_lt.1 (key hm hn))

end Rounding

/-! ### Samples -/

namespace Sample

/-- **The sample of a value**, in the words of ratios. -/
inductive Quantizes : Single → ℤ → Prop
  /-- What is not a number is silence. -/
  | nan : Quantizes .nan 0
  /-- An infinity is at the end of the range. -/
  | infinite (negative : Bool) : Quantizes (.infinite negative) (if negative then -32768 else 32767)
  /-- Any other value is rounded once, and then the range ends. -/
  | finite {x : Single} {q : ℚ} {n : ℤ} : x.ratio? = some q → Rounding.Nearest (q * 32768) n →
      Quantizes x (max (-32768) (min n 32767))

/-- A value has one sample. -/
theorem Quantizes.unique {x : Single} {m n : ℤ} (hm : Quantizes x m) (hn : Quantizes x n) : m = n := by
  cases hm with
  | nan => cases hn with
    | nan => rfl
    | finite hq _ => cases hq
  | infinite negative => cases hn with
    | infinite => rfl
    | finite hq _ => cases (Value.ratio?_infinite negative).symm.trans hq
  | finite hq hround => cases hn with
    | nan => cases hq
    | infinite negative => cases (Value.ratio?_infinite negative).symm.trans hq
    | finite hq' hround' =>
      obtain rfl := Option.some.inj (hq.symm.trans hq')
      rw [hround.unique hround']

/-- A clamped size is a sign and a size, held back at the ends of the range. -/
theorem clamp_eq (negative : Bool) (size : Nat) :
    clamp negative size = max (-32768) (min (if negative then -(size : ℤ) else size) 32767) := by
  have hscale : scale = 32768 := rfl
  cases negative <;> simp only [clamp, hscale, if_true, Bool.false_eq_true, if_false] <;> omega

/-- Sizes that are out of range count as one. -/
theorem clamp_of_le (negative : Bool) {size : Nat} (h : scale ≤ size) :
    clamp negative size = if negative then -32768 else 32767 := by
  have hscale : scale = 32768 := rfl
  rw [hscale] at h
  rw [clamp_eq]
  cases negative <;> simp only [if_true, Bool.false_eq_true, if_false] <;> omega

/-- Infinite magnitudes are out of the range of the wire. -/
theorem scale_le_infinite : scale ≤
    Rounding.halfUp (Format.single.quanta Format.single.infiniteMagnitude * scale)
      Format.single.unit := by
  decide +kernel

/-- **Quantization rounds the ratio once, and saturates.** -/
theorem quantizes_quantize (x : Single) : Quantizes x (quantize x) := by
  obtain ⟨negative, magnitude⟩ | _ := x
  · by_cases hinfinite : magnitude.val = Format.single.infinity
    · obtain rfl : magnitude = Format.single.infiniteMagnitude := Fin.ext hinfinite
      rw [quantize, clamp_of_le negative scale_le_infinite]
      exact .infinite negative
    · have hunit := Format.single.unit_pos
      have hround := Rounding.nearest_halfUp (Format.single.quanta magnitude * scale) hunit
      have hscaled : ((Format.single.quanta magnitude * scale : Nat) : ℚ) / Format.single.unit =
          Format.single.quanta magnitude / Format.single.unit * 32768 := by
        rw [Nat.cast_mul, mul_div_right_comm, scale, Nat.cast_ofNat]
      rw [hscaled] at hround
      rw [quantize, clamp_eq]
      refine .finite (Value.ratio?_signed negative hinfinite) ?_
      cases negative
      · exact hround
      · rw [if_pos rfl, if_pos rfl, neg_mul]
        exact hround.neg
  · exact .nan

theorem quantizes_iff {x : Single} {n : ℤ} : Quantizes x n ↔ quantize x = n :=
  ⟨(quantizes_quantize x).unique, fun h => h ▸ quantizes_quantize x⟩

/-- **Quantization does not decrease** where values do not. -/
theorem quantize_mono {x y : Single} (h : x.le y = true) : quantize x ≤ quantize y := by
  obtain ⟨a, b, ha, hb, hab⟩ := Value.le_iff.1 h
  obtain ⟨negative, m⟩ | _ := x
  · obtain ⟨negative', n⟩ | _ := y
    · obtain rfl := Option.some.inj ha
      obtain rfl := Option.some.inj hb
      have hsize : ∀ {m n : Nat}, m ≤ n →
          Rounding.halfUp (Format.single.quanta m * scale) Format.single.unit ≤
            Rounding.halfUp (Format.single.quanta n * scale) Format.single.unit := fun hmn =>
        Rounding.halfUp_mono _
          (Nat.mul_le_mul_right _ (Format.single.quanta_strictMono.monotone hmn))
      rw [quantize, quantize, clamp_eq, clamp_eq]
      refine max_le_max_left _ (min_le_min_right _ ?_)
      cases negative <;> cases negative' <;>
        simp only [if_true, Bool.false_eq_true, if_false] at hab ⊢
      · exact_mod_cast hsize (by exact_mod_cast hab)
      · -- only zeros are at least as large as what has a minus sign
        have hm : m.val = 0 := by omega
        have hn : n.val = 0 := by omega
        rw [hm, hn]
        decide +kernel
      · omega
      · exact neg_le_neg (by exact_mod_cast hsize (by omega))
    · cases hb
  · cases ha

/-! ### Through the format -/

/-- Full scale as a value. -/
def fullScale : Single := .ofNat scale

/-- **Quantization through the format**: the product with full scale, rounded to a value, is rounded to a
whole number and clamped. -/
def quantizeScaled (x : Single) : ℤ :=
  match x.mul fullScale with
  | .nan => 0
  | .signed negative magnitude =>
    clamp negative (Rounding.halfUp (Format.single.quanta magnitude) Format.single.unit)

/-- A magnitude is a significand, doubled so many times. -/
theorem exists_significand (pattern : Nat) :
    ∃ significand shift, significand < 2 ^ 24 ∧
      Format.single.quanta pattern = significand * 2 ^ shift := by
  have hlt : pattern % 2 ^ 23 < 2 ^ 23 := Nat.mod_lt _ (by decide)
  have hpattern : pattern = pattern / 2 ^ 23 * 2 ^ 23 + pattern % 2 ^ 23 := by omega
  have hquanta := Format.single.quanta_eq (pattern / 2 ^ 23) hlt
  change Format.single.quanta (pattern / 2 ^ 23 * 2 ^ 23 + pattern % 2 ^ 23) = _ at hquanta
  rw [← hpattern] at hquanta
  split at hquanta
  · exact ⟨pattern % 2 ^ 23, 0, by omega, by rw [hquanta, Nat.pow_zero, Nat.mul_one]⟩
  · exact ⟨2 ^ 23 + pattern % 2 ^ 23, pattern / 2 ^ 23 - 1, by omega, hquanta⟩

/-- **A product with full scale that is finite is exact.** -/
theorem quanta_scaled {pattern : Nat} (h : (Format.single.quanta pattern * scale).log2 < 277) :
    Format.single.quanta (Format.single.nearest
      (Format.single.quanta pattern * scale * Format.single.unit) Format.single.unit) =
        Format.single.quanta pattern * scale := by
  obtain ⟨significand, shift, hsignificand, hquanta⟩ := exists_significand pattern
  have hproduct : Format.single.quanta pattern * scale = significand * 2 ^ (shift + 15) := by
    rw [hquanta, Nat.pow_add, Nat.mul_assoc]
    rfl
  obtain ⟨n, hn⟩ : ∃ n, Format.single.quanta pattern * scale = n := ⟨_, rfl⟩
  have hexcess : Format.single.excess n = n.log2 - 23 := rfl
  have hexponents : 2 ^ Format.single.exponentBits = 256 := rfl
  rw [hn] at h hproduct ⊢
  rcases Nat.eq_zero_or_pos n with rfl | hpos
  · exact Format.quanta_nearest _ Format.single.unit_pos (Nat.dvd_zero _) (by decide)
  · have hlow : n.log2 < shift + 15 + 24 := by
      refine (Nat.log2_lt (Nat.ne_of_gt hpos)).2 ?_
      rw [hproduct, Nat.pow_add 2 (shift + 15) 24, Nat.mul_comm]
      exact Nat.mul_lt_mul_of_pos_left hsignificand (Nat.two_pow_pos _)
    refine Format.quanta_nearest _ Format.single.unit_pos ?_ (by rw [hexcess, hexponents]; omega)
    rw [hexcess]
    conv => rhs; rw [hproduct]
    exact Nat.dvd_mul_left_of_dvd (Nat.pow_dvd_pow 2 (by omega)) significand

theorem ne_zero_of_log2 {n : Nat} (h : 277 ≤ n.log2) : n ≠ 0 := by
  rintro rfl
  exact absurd h (by decide)

/-- **A product with full scale beyond the format is infinite.** -/
theorem nearest_scaled_of_le {n : Nat} (h : 277 ≤ n.log2) :
    Format.single.nearest (n * Format.single.unit) Format.single.unit =
      Format.single.infiniteMagnitude := by
  have hpos := ne_zero_of_log2 h
  have hexcess : Format.single.excess n = n.log2 - 23 := rfl
  obtain ⟨den, hden⟩ : ∃ d, Format.single.unit * 2 ^ Format.single.excess n = d := ⟨_, rfl⟩
  have hround : 2 ^ 23 ≤ Rounding.halfEven (n * Format.single.unit) den := by
    have hwhole : 2 ^ 23 ≤ n * Format.single.unit / den := by
      rw [← hden, Nat.mul_comm n, Nat.mul_div_mul_left _ _ Format.single.unit_pos,
        Nat.le_div_iff_mul_le (Nat.two_pow_pos _), ← Nat.pow_add, hexcess]
      have hsum : 23 + (n.log2 - 23) = n.log2 := by omega
      rw [hsum]
      exact Nat.log2_self_le hpos
    exact Nat.le_trans hwhole (Rounding.div_le_halfEven _ _)
  have hinfinity : Format.single.infinity = 255 * 2 ^ 23 := rfl
  have hbits : 2 ^ Format.single.fractionBits = 2 ^ 23 := rfl
  refine Fin.ext ?_
  rw [Format.nearest_val, Nat.mul_div_cancel _ Format.single.unit_pos, hden, hexcess, hbits]
  change min _ Format.single.infinity = Format.single.infinity
  refine Nat.min_eq_right ?_
  rw [hinfinity]
  omega

/-- What is beyond the format is beyond full scale. -/
theorem scale_le_halfUp {n : Nat} (h : 277 ≤ n.log2) :
    scale ≤ Rounding.halfUp n Format.single.unit := by
  have hpos := ne_zero_of_log2 h
  have hle : scale * Format.single.unit ≤ n := by
    calc scale * Format.single.unit = 2 ^ 164 := by decide +kernel
      _ ≤ 2 ^ n.log2 := Nat.pow_le_pow_right Nat.two_pos (by omega)
      _ ≤ n := Nat.log2_self_le hpos
  calc scale = Rounding.halfUp (scale * Format.single.unit) Format.single.unit :=
        (Rounding.halfUp_mul _ _ Format.single.unit_pos).symm
    _ ≤ Rounding.halfUp n Format.single.unit := Rounding.halfUp_mono _ hle

/-- **The way through the format comes to the same.** -/
theorem quantizeScaled_eq (x : Single) : quantizeScaled x = quantize x := by
  obtain ⟨negative, m⟩ | _ := x
  · obtain ⟨k, hfull, hk⟩ : ∃ k : Fin (Format.single.infinity + 1), fullScale = .signed false k ∧
        Format.single.quanta k = scale * Format.single.unit ∧ k.val ≠ Format.single.infinity ∧
          k.val ≠ 0 := ⟨_, rfl, by decide +kernel, by decide +kernel, by decide +kernel⟩
    obtain ⟨hquanta, hfinite, hzero⟩ := hk
    have hbeyond : scale ≤ Rounding.halfUp
        (Format.single.quanta Format.single.infiniteMagnitude) Format.single.unit := by
      decide +kernel
    have hsign : (negative != false) = negative := by cases negative <;> rfl
    have hinf : Value.infinite (F := .single) negative =
      .signed negative Format.single.infiniteMagnitude := rfl
    rw [quantizeScaled, hfull, Value.mul]
    by_cases hm : m.val = Format.single.infinity
    · have hnonzero : ¬ (m.val = 0 ∨ k.val = 0) := by
        rw [hm]
        exact not_or.2 ⟨by decide, hzero⟩
      obtain rfl : m = Format.single.infiniteMagnitude := Fin.ext hm
      rw [if_pos (.inl hm), if_neg hnonzero, hsign, hinf, quantize,
        clamp_of_le negative scale_le_infinite]
      exact clamp_of_le negative hbeyond
    · rw [if_neg (not_or.2 ⟨hm, hfinite⟩), hsign, hquanta, ← Nat.mul_assoc, quantize]
      rcases Nat.lt_or_ge (Format.single.quanta m * scale).log2 277 with hlt | hge
      · change clamp negative (Rounding.halfUp (Format.single.quanta _) _) = _
        rw [quanta_scaled hlt]
      · rw [nearest_scaled_of_le hge, clamp_of_le negative (scale_le_halfUp hge)]
        exact clamp_of_le negative hbeyond
  · rfl

/-! ### Words on the wire -/

/-- **The word of a sample**, its low byte first and with a sign. -/
theorem wire_eq {sample : ℤ} (hlow : -32768 ≤ sample) (hhigh : sample ≤ 32767) :
    ∃ low high : UInt8, wire sample = [low, high] ∧
      (low.toNat + 256 * high.toNat : ℤ).bmod 65536 = sample := by
  obtain ⟨word, hword⟩ : ∃ w, (sample % 65536).toNat = w := ⟨_, rfl⟩
  have hsmall : word < 65536 := by omega
  refine ⟨UInt8.ofNat word, UInt8.ofNat (word / 256), by rw [wire, hword], ?_⟩
  rw [UInt8.toNat_ofNat', UInt8.toNat_ofNat', Int.bmod]
  omega

/-- The words of a run of samples, in order. -/
theorem word_spell (samples : List ℤ) : ∀ (i : Nat) (hi : i < samples.length),
    ((spell samples).drop (2 * i)).take 2 = wire samples[i] := by
  induction samples with
  | nil => exact fun i hi => absurd hi (Nat.not_lt_zero i)
  | cons sample samples ih =>
    rintro (_ | i) hi
    · rfl
    · rw [Nat.mul_succ, Nat.add_comm, ← List.drop_drop]
      exact ih i (Nat.lt_of_succ_lt_succ hi)

end Sample

/-! ### Frames -/

/-- **Encoding onto bytes that are there**: sample by sample, each behind those before it. -/
def Frame.encodeOnto (frame : Frame) (before : Bytes) : Bytes :=
  frame.samples.foldl (fun bytes x => bytes ++ Sample.wire (Sample.quantize x)) before

/-- What is there already stays, and the encoded frame comes behind it. -/
theorem Frame.encodeOnto_eq (frame : Frame) (before : Bytes) :
    frame.encodeOnto before = before ++ frame.encode.bytes := by
  simp only [encodeOnto, encode, Sample.spell]
  generalize frame.samples = samples
  induction samples generalizing before with
  | nil => rw [List.foldl_nil, List.map_nil, List.flatMap_nil, List.append_nil]
  | cons x samples ih =>
    rw [List.foldl_cons, ih, List.map_cons, List.flatMap_cons, List.append_assoc]

/-- **The sample codec is exact and saturates.** A decoded frame is encoded as it was, behind whatever is
there already. Any frame is encoded in 960 bytes, and the word of its `i`-th value is that value's sample:
silence, an end of the range, or its ratio rounded once. So encoding keeps the order of values and the
range of the wire, and what was encoded once is encoded as it is from then on. -/
theorem Frame.encodeOnto_exact (before : Bytes) :
    (∀ frame : WireFrame, frame.decode.encodeOnto before = before ++ frame.bytes) ∧
      (∀ frame : Frame, ∃ encoded : WireFrame, frame.encodeOnto before = before ++ encoded.bytes ∧
        encoded.bytes.length = 960 ∧
        (∀ i (hi : i < frame.samples.length), ∃ low high : UInt8,
          (encoded.bytes.drop (2 * i)).take 2 = [low, high] ∧ ∀ n,
            Sample.Quantizes frame.samples[i] n ↔ (low.toNat + 256 * high.toNat : ℤ).bmod 65536 = n) ∧
        encoded.decode.encodeOnto before = before ++ encoded.bytes) ∧
      (∀ x y : Single, x.le y = true → Sample.quantize x ≤ Sample.quantize y) ∧
      (∀ x : Single, -32768 ≤ Sample.quantize x ∧ Sample.quantize x ≤ 32767) ∧
      ∀ x : Single, Sample.quantizeScaled x = Sample.quantize x := by
  have hdecoded : ∀ frame : WireFrame, frame.decode.encodeOnto before = before ++ frame.bytes :=
    fun frame => by rw [Frame.encodeOnto_eq, frame.encode_decode]
  refine ⟨hdecoded, fun frame => ⟨frame.encode, frame.encodeOnto_eq before,
    frame.encode.length_bytes, fun i hi => ?_, hdecoded _⟩, fun _ _ => Sample.quantize_mono,
    Sample.quantize_mem, Sample.quantizeScaled_eq⟩
  obtain ⟨hlow, hhigh⟩ := Sample.quantize_mem frame.samples[i]
  obtain ⟨low, high, hwire, hword⟩ := Sample.wire_eq hlow hhigh
  have hblock := Sample.word_spell (frame.samples.map Sample.quantize) i (by rwa [List.length_map])
  rw [List.getElem_map, hwire] at hblock
  exact ⟨low, high, hblock, fun n => by rw [hword]; exact Sample.quantizes_iff⟩

end NoiseFilter
