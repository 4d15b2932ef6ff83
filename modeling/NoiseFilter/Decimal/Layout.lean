import NoiseFilter.Decimal.Numeral

/-!
# Layouts of decimal numbers

Which digits stand for a value is settled by `NoiseFilter.Decimal.shortest`; how they are set out is a
choice of whoever writes the number. A `Layout` is that choice, one record per kind of text:

| layout | used for | whole numbers | exponent form |
|---|---|---|---|
| `Layout.plain` | messages to people | `7` | never |
| `Layout.verbose` | settings in log records | `7.0` | below `1e-4`, from `1e16`: `1e-5` |
| `Layout.document` | documents, 32 bits | `7.0` | below `1e-6`, from `1e13`: `1e-7`, `1e+13` |
| `Layout.documentWide` | documents, 64 bits | `7.0` | below `1e-5`, from `1e16`: `1e-6`, `1e+16` |

`NoiseFilter.Decimal.fixed` is the one text without a choice of digits: a set number of places, the
exact value rounded to them.
-/

namespace NoiseFilter.Decimal

open Binary

/-- How a number is set out. -/
structure Layout where
  /-- which of two equally near numerals is taken -/
  tie : Tie
  /-- the leading exponents that are written without an exponent, from the first to the second -/
  positional : Option (Int × Int)
  /-- whether a whole number gets a fraction digit -/
  fraction : Bool
  /-- whether a positive exponent has a sign -/
  plus : Bool
deriving DecidableEq, Repr

namespace Layout

/-- Numbers in messages: never an exponent, and a point only where digits follow it. -/
def plain : Layout := ⟨.up, none, false, false⟩

/-- Numbers in log records: always a point or an exponent. -/
def verbose : Layout := ⟨.up, some (-4, 15), true, false⟩

/-- Numbers of 32 bits in documents. -/
def document : Layout := ⟨.even, some (-6, 12), true, true⟩

/-- Numbers of 64 bits in documents. -/
def documentWide : Layout := ⟨.even, some (-5, 15), true, true⟩

end Layout

/-! ### Setting out a numeral -/

/-- A run of zeros. -/
def zeros (count : Nat) : List Char := List.replicate count '0'

/-- The digits with the point in its place and no exponent. -/
def withoutExponent (fraction : Bool) (n : Numeral) : List Char :=
  let digits := Nat.toDigits 10 n.digits
  if 0 ≤ n.exponent then
    digits ++ zeros n.exponent.toNat ++ (if fraction then ['.', '0'] else [])
  else
    let whole := n.length + n.exponent
    if 0 < whole then digits.take whole.toNat ++ '.' :: digits.drop whole.toNat
    else ['0', '.'] ++ zeros (-whole).toNat ++ digits

/-- The digits with the point after the first of them, and the exponent that goes with it. -/
def withExponent (plus : Bool) (n : Numeral) : List Char :=
  let mantissa := match Nat.toDigits 10 n.digits with
    | [] => []
    | [d] => [d]
    | d :: ds => d :: '.' :: ds
  let mark := if n.leading < 0 then ['e', '-'] else if plus then ['e', '+'] else ['e']
  mantissa ++ mark ++ Nat.toDigits 10 n.leading.natAbs

/-- A numeral as the layout wants it. -/
def Layout.setOut (layout : Layout) (n : Numeral) : List Char :=
  match layout.positional with
  | none => withoutExponent layout.fraction n
  | some (lowest, highest) =>
    if n.digits = 0 ∨ (lowest ≤ n.leading ∧ n.leading ≤ highest) then withoutExponent layout.fraction n
    else withExponent layout.plus n

/-- **The text of a value** in a layout. -/
def Layout.text (layout : Layout) {F : Format} : Value F → String
  | .nan => "NaN"
  | .signed negative magnitude =>
    let digits := if magnitude.val = F.infinity then "inf".toList
      else layout.setOut (if magnitude.val = 0 then ⟨0, 0⟩ else shortest F layout.tie magnitude)
    String.ofList (if negative then '-' :: digits else digits)

/-! ### A fixed number of places -/

/-- **A fixed number of places**: the exact ratio `num / den` rounded to `places` decimals, a half to
the even digit. -/
def fixed (places num den : Nat) : String :=
  let scaled := Rounding.halfEven (num * Nat.pow 10 places) den
  let fraction := Nat.toDigits 10 (scaled % Nat.pow 10 places)
  let whole := Nat.toDigits 10 (scaled / Nat.pow 10 places)
  String.ofList (whole ++ '.' :: (zeros (places - fraction.length) ++ fraction))

end NoiseFilter.Decimal
