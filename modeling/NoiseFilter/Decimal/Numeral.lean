import NoiseFilter.Binary.Value

/-!
# Decimal numerals of floating point values

A numeral is a whole number of digits times a power of ten. Two directions are defined, and the
second through the first:

* `NoiseFilter.Decimal.Numeral.magnitude` **reads** a numeral: the nearest magnitude of a format,
  whatever the numeral's length;
* `NoiseFilter.Decimal.shortest` **writes** a magnitude: the numeral of fewest digits that reads back
  as it and, among those, the one nearest to it.

The search for the shortest numeral walks down the decimal grids (whole numbers, tenths, hundredths,
…) and tests on each of them only the two neighbours of the value: if any point of a grid reads back,
one of the neighbours does. It needs no bound on digits, since a quantum is itself a decimal of
`unitLog` places.
-/

namespace NoiseFilter.Decimal

open Binary

/-- A numeral: `digits` times ten to the power `exponent`. -/
structure Numeral where
  digits : Nat
  exponent : Int
deriving DecidableEq, Repr

/-- What is done when two numerals of equal length are equally near. -/
inductive Tie
  | up
  | even
deriving DecidableEq, Repr

namespace Numeral

/-- The number of decimal digits. -/
def length (n : Numeral) : Nat := (Nat.toDigits 10 n.digits).length

/-- The exponent of the leading digit. -/
def leading (n : Numeral) : Int := n.length + n.exponent - 1

/-- **Reading**: the nearest magnitude of the format. Numerals far outside the range of the format
are settled by their leading digit, so that no power of ten is computed in vain: no format reaches
ten to the power `unitLog`, and a tenth to that power rounds to nothing. -/
def magnitude (F : Format) (n : Numeral) : Fin (F.infinity + 1) :=
  if n.digits = 0 then F.zeroMagnitude
  else if (F.unitLog : Int) < n.leading then F.infiniteMagnitude
  else if n.leading < -(F.unitLog : Int) then F.zeroMagnitude
  else if 0 ≤ n.exponent then F.nearest (n.digits * Nat.pow 10 n.exponent.toNat * F.unit) 1
  else F.nearest (n.digits * F.unit) (Nat.pow 10 (-n.exponent).toNat)

end Numeral

/-- The neighbours of `pattern` on the grid of multiples of ten to the power `exponent`, the one to be
tried first in front. -/
def neighbours (F : Format) (tie : Tie) (pattern : Nat) (exponent : Int) : List Numeral :=
  let num := F.quanta pattern * Nat.pow 10 (-exponent).toNat
  let den := F.unit * Nat.pow 10 exponent.toNat
  let below := num / den
  let rest := 2 * (num % den)
  let upper := den < rest ∨ (den = rest ∧ (tie = .up ∨ below % 2 = 1))
  if rest = 0 then [⟨below, exponent⟩]
  else if upper then [⟨below + 1, exponent⟩, ⟨below, exponent⟩]
  else [⟨below, exponent⟩, ⟨below + 1, exponent⟩]

/-- The first numeral that reads back, on the grids from ten to the power `exponent` downwards;
`grids` bounds how many grids are left. -/
def search (F : Format) (tie : Tie) (pattern : Nat) (exponent : Int) : Nat → Numeral
  | 0 => ⟨F.quanta pattern * Nat.pow 10 F.unitLog / F.unit, -(F.unitLog : Int)⟩
  | grids + 1 =>
    match (neighbours F tie pattern exponent).find? fun n => (n.magnitude F).val = pattern with
    | some n => n
    | none => search F tie pattern (exponent - 1) grids

/-- The first grid worth a try: above the value, so that the first neighbour that can read back has one
digit. -/
def topExponent (F : Format) (pattern : Nat) : Nat :=
  (Nat.toDigits 10 (F.quanta pattern / F.unit)).length

/-- **Writing**: the numeral of fewest digits that reads back as `pattern`, the nearest of those. -/
def shortest (F : Format) (tie : Tie) (pattern : Nat) : Numeral :=
  search F tie pattern (topExponent F pattern) (topExponent F pattern + F.unitLog)

end NoiseFilter.Decimal
