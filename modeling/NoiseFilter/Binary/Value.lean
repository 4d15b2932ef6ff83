import NoiseFilter.Binary.Format

/-!
# Floating point values

A value of a format is a signed magnitude or not a number. All the values that are not a number
count as one: nothing that this library answers tells them apart.

Each operation works on exact quanta and rounds once, at the end:

| operation | exact value that is rounded |
|---|---|
| `Value.add` | the sum of the two signed quanta |
| `Value.mul` | the product, which counts squares of a quantum |
| `Value.div` | the quotient, which counts ones |
| `Value.ofRatio` | a signed ratio of two natural numbers |

Comparison, `Value.le`, needs no rounding at all: magnitude patterns are ordered as their values.
-/

namespace NoiseFilter.Binary

/-- **A floating point value** of the format `F`: a sign and a magnitude pattern, at most that of
infinity, or not a number. -/
inductive Value (F : Format)
  | signed (negative : Bool) (magnitude : Fin (F.infinity + 1))
  | nan
deriving DecidableEq

/-- The values of 32 bits, in which samples and thresholds are kept. -/
abbrev Single := Value .single

/-- The values of 64 bits. -/
abbrev Double := Value .double

namespace Value

variable {F : Format}

instance : Inhabited (Value F) := ⟨.nan⟩

/-! ### Building values -/

/-- The value nearest to `num / den`, with the given sign; a result too small for the format is a
zero of that sign. -/
def ofRatio (negative : Bool) (num den : Nat) : Value F :=
  .signed negative (F.nearest (num * F.unit) den)

/-- Zero without a minus sign. -/
def zero : Value F := .signed false F.zeroMagnitude

/-- The infinity of the given sign. -/
def infinite (negative : Bool) : Value F := .signed negative F.infiniteMagnitude

/-- The value nearest to a whole number; zero comes without a sign. -/
def ofInt (n : Int) : Value F := ofRatio (decide (n < 0)) n.natAbs 1

/-- The value nearest to a natural number. -/
def ofNat (n : Nat) : Value F := ofRatio false n 1

/-! ### Words -/

/-- The value of a word: sign bit first, then the magnitude; a magnitude above infinity is not a
number. -/
def ofBits (bits : Nat) : Value F :=
  let magnitude := bits % Nat.pow 2 F.magnitudeBits
  if h : magnitude ≤ F.infinity then
    .signed (bits / Nat.pow 2 F.magnitudeBits % 2 == 1) ⟨magnitude, Nat.lt_succ_of_le h⟩
  else .nan

/-- The word of a value. The word of what is not a number has the first fraction bit set and no
sign. -/
def toBits : Value F → Nat
  | .signed negative magnitude => (if negative then Nat.pow 2 F.magnitudeBits else 0) + magnitude.val
  | .nan => F.infinity + Nat.pow 2 (F.fractionBits - 1)

/-! ### Tests and order -/

/-- Whether a value is a number below infinity. -/
def isFinite : Value F → Bool
  | .signed _ magnitude => magnitude.val < F.infinity
  | .nan => false

/-- The place of a value in the order of all values; what is not a number has none. Both zeros have
the same place. -/
def rank? : Value F → Option Int
  | .signed negative magnitude => some (if negative then -(magnitude.val : Int) else magnitude.val)
  | .nan => none

/-- **Comparison**: never true of what is not a number. -/
def le (x y : Value F) : Bool :=
  match x.rank?, y.rank? with
  | some a, some b => decide (a ≤ b)
  | _, _ => false

/-! ### Arithmetic -/

/-- The value with its sign turned round. -/
def neg : Value F → Value F
  | .signed negative magnitude => .signed (!negative) magnitude
  | .nan => .nan

/-- The quanta of a signed magnitude, as a whole number. -/
def signedQuanta (F : Format) (negative : Bool) (magnitude : Nat) : Int :=
  if negative then -(F.quanta magnitude : Int) else F.quanta magnitude

/-- **Sum**, rounded once. Opposite infinities have none; an exact zero is negative only when both
operands are. -/
def add : Value F → Value F → Value F
  | .signed a m, .signed b n =>
    if m.val = F.infinity then
      if n.val = F.infinity ∧ a ≠ b then .nan else .signed a m
    else if n.val = F.infinity then .signed b n
    else
      let total := signedQuanta F a m + signedQuanta F b n
      if total = 0 then .signed (a && b) F.zeroMagnitude
      else .signed (decide (total < 0)) (F.nearest total.natAbs 1)
  | _, _ => .nan

/-- **Product**, rounded once. Infinity times zero is not a number. -/
def mul : Value F → Value F → Value F
  | .signed a m, .signed b n =>
    if m.val = F.infinity ∨ n.val = F.infinity then
      if m.val = 0 ∨ n.val = 0 then .nan else infinite (a != b)
    else .signed (a != b) (F.nearest (F.quanta m * F.quanta n) F.unit)
  | _, _ => .nan

/-- **Quotient**, rounded once. Zero by zero and infinity by infinity are not a number; anything else
by zero is infinite. -/
def div : Value F → Value F → Value F
  | .signed a m, .signed b n =>
    if m.val = F.infinity then
      if n.val = F.infinity then .nan else infinite (a != b)
    else if n.val = F.infinity then .signed (a != b) F.zeroMagnitude
    else if n.val = 0 then
      if m.val = 0 then .nan else infinite (a != b)
    else .signed (a != b) (F.nearest (F.quanta m * F.unit) (F.quanta n))
  | _, _ => .nan

/-- **Change of format**, rounded once. -/
def convert (G : Format) : Value F → Value G
  | .signed a m =>
    if m.val = F.infinity then infinite a
    else .signed a (G.nearest (F.quanta m * G.unit) F.unit)
  | .nan => .nan

end Value

end NoiseFilter.Binary
