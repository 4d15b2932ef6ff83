import NoiseFilter.Binary.Rounding

/-!
# Binary floating point formats

A format has a sign, an exponent of `exponentBits` and a fraction of `fractionBits`. The sign apart,
a number is its **magnitude pattern**, the exponent and fraction read as one natural number. Two facts
make exact reasoning cheap, and the definitions below rest on them:

* every finite magnitude is a whole number of **quanta**, the quantum being the smallest positive
  magnitude, so `NoiseFilter.Binary.Format.quanta` is a natural number and no value is ever
  approximated;
* patterns are ordered as the magnitudes they stand for, so the rounding of a ratio of quanta,
  `NoiseFilter.Binary.Format.nearest`, is one division, and a carry out of the fraction
  lands in the exponent by itself.

The pattern after the largest finite one stands for infinity, and rounding stops there.
-/

namespace NoiseFilter.Binary

/-- The widths of the two fields of a format. -/
structure Format where
  fractionBits : Nat
  exponentBits : Nat
deriving DecidableEq, Repr

namespace Format

/-- The format of 32 bits. -/
def single : Format := ⟨23, 8⟩

/-- The format of 64 bits. -/
def double : Format := ⟨52, 11⟩

variable (F : Format)

/-- How often the quantum doubles on the way to one. -/
def unitLog : Nat := Nat.pow 2 (F.exponentBits - 1) - 2 + F.fractionBits

/-- The number of quanta in one. -/
def unit : Nat := Nat.pow 2 F.unitLog

/-- The magnitude pattern of infinity: all exponent bits set, no fraction bit. -/
def infinity : Nat := (Nat.pow 2 F.exponentBits - 1) * Nat.pow 2 F.fractionBits

/-- The magnitude zero. -/
def zeroMagnitude : Fin (F.infinity + 1) := ⟨0, Nat.succ_pos _⟩

/-- The magnitude infinity. -/
def infiniteMagnitude : Fin (F.infinity + 1) := ⟨F.infinity, Nat.lt_succ_self _⟩

/-- The bits of a word of this format below its sign bit. -/
def magnitudeBits : Nat := F.exponentBits + F.fractionBits

/-- **The value of a magnitude pattern, in quanta.** An exponent field of zero holds the fraction as
it is; any other restores the leading one and doubles once per step above the lowest. -/
def quanta (pattern : Nat) : Nat :=
  let exponent := pattern / Nat.pow 2 F.fractionBits
  let fraction := pattern % Nat.pow 2 F.fractionBits
  if exponent = 0 then fraction
  else (Nat.pow 2 F.fractionBits + fraction) * Nat.pow 2 (exponent - 1)

/-- **The nearest magnitude** to `num / den` quanta, ties to the even pattern, infinity where the
rounded value lies beyond the largest finite magnitude. The quotient is cut to `fractionBits + 1`
leading bits; each bit that the cut drops raises the exponent by one. -/
def nearest (num den : Nat) : Fin (F.infinity + 1) :=
  let shift := (num / den).log2 - F.fractionBits
  let pattern := shift * Nat.pow 2 F.fractionBits + Rounding.halfEven num (den * Nat.pow 2 shift)
  ⟨min pattern F.infinity, Nat.lt_succ_of_le (Nat.min_le_right _ _)⟩

end Format

end NoiseFilter.Binary
