import Mathlib.Algebra.Group.Nat.Defs
import NoiseFilter.Pcm.Frame

/-!
# The sample codec is exact

A wire sample over 32768 has at most sixteen significant bits, so the format holds it exactly, and
quantizing it multiplies the 32768 back. Hence a frame that was decoded is encoded as it was,
`WireFrame.encode_decode`: whatever a filter does **not** change leaves it byte for byte.

The format's side of this is `Binary.Format.quanta_nearest`: a number of quanta that the format can hold is its
own nearest value.
-/

namespace NoiseFilter

namespace Binary.Format

variable (F : Format)

/-- The bits of a number of quanta that its nearest pattern has no room for. -/
def excess (n : Nat) : Nat := n.log2 - F.fractionBits

/-- The value of a pattern whose significand is `q`, `shift` doublings above the lowest. -/
theorem quanta_significand {shift q : Nat} (hq : q < 2 ^ (F.fractionBits + 1))
    (hnormal : shift ≠ 0 → 2 ^ F.fractionBits ≤ q) :
    F.quanta (shift * 2 ^ F.fractionBits + q) = q * 2 ^ shift := by
  obtain ⟨unit, hunit⟩ : ∃ u, 2 ^ F.fractionBits = u := ⟨_, rfl⟩
  have hpos : 0 < unit := by rw [← hunit]; exact Nat.two_pow_pos _
  rw [Nat.pow_succ, hunit] at hq
  rw [hunit] at hnormal
  rw [quanta, Nat.pow_eq, hunit]
  rcases Nat.lt_or_ge q unit with hlt | hge
  · -- a subnormal significand, so nothing was doubled
    obtain rfl : shift = 0 := by
      rcases Nat.eq_zero_or_pos shift with h0 | hpos'
      · exact h0
      · exact absurd (hnormal (Nat.ne_of_gt hpos')) (Nat.not_le.2 hlt)
    rw [Nat.zero_mul, Nat.zero_add, Nat.div_eq_of_lt hlt, Nat.mod_eq_of_lt hlt, if_pos rfl,
      Nat.pow_zero, Nat.mul_one]
  · -- the leading one of the significand carries into the exponent
    obtain ⟨fraction, rfl⟩ := Nat.exists_eq_add_of_le hge
    have hfraction : fraction < unit := by omega
    have hpattern : shift * unit + (unit + fraction) = fraction + unit * (shift + 1) := by
      rw [Nat.mul_add, Nat.mul_comm unit shift, Nat.mul_one]
      omega
    rw [hpattern, Nat.add_mul_div_left _ _ hpos, Nat.add_mul_mod_self_left,
      Nat.div_eq_of_lt hfraction, Nat.mod_eq_of_lt hfraction, Nat.zero_add,
      if_neg (Nat.succ_ne_zero shift)]
    rfl

theorem nearest_val (num den : Nat) :
    (F.nearest num den).val =
      min (F.excess (num / den) * 2 ^ F.fractionBits +
        Rounding.halfEven num (den * 2 ^ F.excess (num / den))) F.infinity := rfl

/-- The bits that there is room for are those of a significand at most. -/
theorem significand_lt (n : Nat) : n / 2 ^ F.excess n < 2 ^ (F.fractionBits + 1) := by
  rw [Nat.div_lt_iff_lt_mul (Nat.two_pow_pos _), ← Nat.pow_add]
  exact Nat.lt_of_lt_of_le Nat.lt_log2_self
    (Nat.pow_le_pow_right Nat.two_pos (by rw [excess]; omega))

/-- They are a whole significand if others had no room. -/
theorem le_significand {n : Nat} (h : F.excess n ≠ 0) :
    2 ^ F.fractionBits ≤ n / 2 ^ F.excess n := by
  have hn : n ≠ 0 := by
    rintro rfl
    exact h (by rw [excess, Nat.log2_zero, Nat.zero_sub])
  have hlog : F.fractionBits + F.excess n = n.log2 := by
    rw [excess] at h ⊢
    omega
  rw [Nat.le_div_iff_mul_le (Nat.two_pow_pos _), ← Nat.pow_add, hlog]
  exact Nat.log2_self_le hn

/-- A number has no more bits too many than a power of two that it lies below. -/
theorem excess_le {n bits : Nat} (h : n < 2 ^ (F.fractionBits + 1 + bits)) : F.excess n ≤ bits := by
  rw [excess]
  rcases Nat.eq_zero_or_pos n with rfl | hpos
  · rw [Nat.log2_zero, Nat.zero_sub]
    exact Nat.zero_le _
  · have := (Nat.log2_lt (Nat.ne_of_gt hpos)).2 h
    omega

/-- **A number of quanta that the format can hold is its own nearest value**: one whose low bits are
zero, as many as the format has no room for. -/
theorem quanta_nearest {n den : Nat} (hden : 0 < den) (hlow : 2 ^ F.excess n ∣ n)
    (hfinite : F.excess n + 2 < 2 ^ F.exponentBits) : F.quanta (F.nearest (n * den) den) = n := by
  obtain ⟨q, hq⟩ := hlow
  have hpow : 0 < 2 ^ F.excess n := Nat.two_pow_pos _
  have hquot : n / 2 ^ F.excess n = q := Nat.div_eq_of_eq_mul_right hpow hq
  have hnum : n * den = q * (den * 2 ^ F.excess n) := by
    conv => lhs; rw [hq]
    rw [Nat.mul_comm (2 ^ _) q, Nat.mul_assoc, Nat.mul_comm (2 ^ _) den]
  have hround : Rounding.halfEven (n * den) (den * 2 ^ F.excess n) = q := by
    rw [hnum]
    exact Rounding.halfEven_mul q _ (Nat.mul_pos hden hpow)
  have hsmall : q < 2 ^ (F.fractionBits + 1) := hquot ▸ F.significand_lt n
  have hbound : F.excess n * 2 ^ F.fractionBits + q ≤ F.infinity := by
    rw [Nat.pow_succ] at hsmall
    calc F.excess n * 2 ^ F.fractionBits + q
        ≤ F.excess n * 2 ^ F.fractionBits + 2 ^ F.fractionBits * 2 := by omega
      _ = (F.excess n + 2) * 2 ^ F.fractionBits := by rw [Nat.add_mul, Nat.mul_comm 2]
      _ ≤ (2 ^ F.exponentBits - 1) * 2 ^ F.fractionBits := Nat.mul_le_mul_right _ (by omega)
  rw [nearest_val, Nat.mul_div_cancel n hden, hround, Nat.min_eq_left hbound,
    quanta_significand F hsmall]
  · rw [Nat.mul_comm]
    exact hq.symm
  · exact fun hexcess => hquot ▸ F.le_significand hexcess

end Binary.Format

/-! ### Samples -/

namespace Sample

open Binary

theorem ofWire_mem (low high : UInt8) : -32768 ≤ ofWire low high ∧ ofWire low high ≤ 32767 := by
  have hl := low.toNat_lt
  have hh := high.toNat_lt
  have hscale : scale = 32768 := rfl
  by_cases h : high.toNat * 256 + low.toNat < scale
  · simp only [ofWire, if_pos h]
    omega
  · simp only [ofWire, if_neg h]
    omega

/-- A size of at most one, over so many binary places, is a number of quanta that the format holds. -/
theorem quanta_fixed {size places : Nat} (hplaces : places ≤ 23) (h : size ≤ 2 ^ places) :
    Format.single.quanta (Format.single.nearest (size * Format.single.unit) (2 ^ places)) =
      size * 2 ^ (149 - places) := by
  have hpow : 2 ^ (149 - places) * 2 ^ places = Format.single.unit := by
    rw [← Nat.pow_add, Nat.sub_add_cancel (by omega)]
    rfl
  have hexcess : Format.single.excess (size * 2 ^ (149 - places)) ≤ 126 := by
    refine Format.excess_le _ ?_
    calc size * 2 ^ (149 - places) ≤ 2 ^ places * 2 ^ (149 - places) := Nat.mul_le_mul_right _ h
      _ = Format.single.unit := by rw [Nat.mul_comm, hpow]
      _ < 2 ^ 150 := by decide
  rw [← hpow, ← Nat.mul_assoc]
  refine Format.quanta_nearest _ (Nat.two_pow_pos _) ?_ ?_
  · exact Nat.dvd_mul_left_of_dvd (Nat.pow_dvd_pow 2 (by omega)) size
  · change _ < 256
    omega

/-- So is the size of a sample, over full scale. -/
theorem quanta_value {size : Nat} (h : size ≤ 32768) :
    Format.single.quanta (Format.single.nearest (size * Format.single.unit) scale) =
      size * 2 ^ 134 :=
  @quanta_fixed size 15 (by decide) h

/-- **Quantizing a wire sample gives it back.** -/
theorem quantize_value {sample : Int} (hlow : -32768 ≤ sample) (hhigh : sample ≤ 32767) :
    quantize (value sample) = sample := by
  have hsize : sample.natAbs ≤ 32768 := by omega
  have hround : Rounding.halfUp (sample.natAbs * 2 ^ 134 * scale) Format.single.unit =
      sample.natAbs := by
    rw [Nat.mul_assoc]
    exact Rounding.halfUp_mul _ _ (by decide)
  rw [value, Value.ofRatio, quantize, quanta_value hsize, hround, clamp, scale]
  by_cases hneg : sample < 0
  · rw [decide_eq_true hneg, if_pos rfl]
    omega
  · rw [decide_eq_false hneg, if_neg Bool.false_ne_true]
    omega

/-- What is read from the wire is in its range. -/
theorem read_mem : ∀ {bytes : Bytes} {sample : Int}, sample ∈ read bytes → -32768 ≤ sample ∧ sample ≤ 32767
  | [], _, h => absurd h List.not_mem_nil
  | [_], _, h => absurd h List.not_mem_nil
  | low :: high :: rest, sample, h => by
    rw [read_cons_cons] at h
    rcases List.mem_cons.1 h with rfl | hrest
    · exact ofWire_mem low high
    · exact read_mem hrest

/-- The two bytes of a sample are read back as that sample. -/
theorem read_wire_append {sample : Int} (hlow : -32768 ≤ sample) (hhigh : sample ≤ 32767) (rest : Bytes) :
    read (wire sample ++ rest) = sample :: read rest := by
  obtain ⟨word, hword⟩ : ∃ w, (sample % 65536).toNat = w := ⟨_, rfl⟩
  have hscale : scale = 32768 := rfl
  rw [wire, hword]
  change read (_ :: _ :: rest) = _
  rw [read_cons_cons, ofWire, UInt8.toNat_ofNat', UInt8.toNat_ofNat', hscale]
  congr 1
  split <;> omega

/-- **Samples of the wire are read back**, all of them. -/
theorem read_spell {samples : List Int} (h : ∀ s ∈ samples, -32768 ≤ s ∧ s ≤ 32767) :
    read (spell samples) = samples := by
  induction samples with
  | nil => rfl
  | cons s samples ih =>
    obtain ⟨⟨hlow, hhigh⟩, hrest⟩ := List.forall_mem_cons.1 h
    rw [spell, List.flatMap_cons, read_wire_append hlow hhigh, ← spell, ih hrest]

/-- Every sample read from the wire survives the way to its value and back. -/
theorem map_quantize_value_read : ∀ bytes : Bytes,
    ((read bytes).map value).map quantize = read bytes
  | [] => rfl
  | [_] => rfl
  | low :: high :: rest => by
    obtain ⟨hlow, hhigh⟩ := ofWire_mem low high
    rw [read_cons_cons, List.map_cons, List.map_cons, quantize_value hlow hhigh,
      map_quantize_value_read rest]

end Sample

/-! ### Frames -/

/-- **A decoded frame is encoded as it was**, byte for byte. -/
theorem WireFrame.encode_decode (frame : WireFrame) : frame.decode.encode = frame := by
  obtain ⟨bytes, hlen⟩ := frame
  simp only [Frame.encode, decode, Sample.map_quantize_value_read, WireFrame.mk.injEq]
  exact Sample.spell_read bytes (by rw [hlen]; rfl)

end NoiseFilter
