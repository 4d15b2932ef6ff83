import NoiseFilter.Decimal.Numeral

/-!
# Numbers given as text

A number that a person types is a sign, digits with or without a point, and an exponent, each but the
digits optional; or one of the words for infinity and for what is not a number, in any case of letters.
Nothing may stand before or after it. It is read as the nearest value, however long it is.
-/

namespace NoiseFilter.Decimal

open Binary

/-- The digits at the start of a text, and the rest. -/
def splitDigits (text : List Char) : List Char × List Char :=
  (text.takeWhile Char.isDigit, text.dropWhile Char.isDigit)

/-- The number that some digits spell. -/
def ofDigits (digits : List Char) : Nat :=
  digits.foldl (fun n c => n * 10 + (c.toNat - '0'.toNat)) 0

/-- A sign at the start of a text: whether it is a minus, and the rest. -/
def splitSign : List Char → Bool × List Char
  | '-' :: rest => (true, rest)
  | '+' :: rest => (false, rest)
  | text => (false, text)

/-- **An exponent up to the end of a text**; without its mark it is zero. -/
def readExponent? : List Char → Option Int
  | [] => some 0
  | mark :: rest =>
    if mark = 'e' ∨ mark = 'E' then
      let (down, digits) := splitSign rest
      if digits.isEmpty ∨ !digits.all Char.isDigit then none
      else some (if down then -(ofDigits digits : Int) else ofDigits digits)
    else none

/-- **An unsigned numeral up to the end of a text.** One digit, before or after the point, is needed. -/
def readNumeral? (text : List Char) : Option Numeral :=
  let (whole, rest) := splitDigits text
  let (fraction, rest) := match rest with
    | '.' :: rest => splitDigits rest
    | rest => ([], rest)
  if whole.isEmpty ∧ fraction.isEmpty then none
  else (readExponent? rest).map fun exponent =>
    ⟨ofDigits (whole ++ fraction), exponent - fraction.length⟩

/-- **A number given as text.** -/
def readValue? (F : Format) (text : String) : Option (Value F) :=
  let (negative, rest) := splitSign text.toList
  let letters := rest.map Char.toLower
  if letters = "inf".toList ∨ letters = "infinity".toList then some (.infinite negative)
  else if letters = "nan".toList then some .nan
  else (readNumeral? rest).map fun n => .signed negative (n.magnitude F)

/-- **A natural number given as text**, below a limit; a plus sign may stand before it. -/
def readNatural? (limit : Nat) (text : String) : Option Nat :=
  let digits := match text.toList with
    | '+' :: rest => rest
    | digits => digits
  if digits.isEmpty ∨ !digits.all Char.isDigit then none
  else if ofDigits digits < limit then some (ofDigits digits)
  else none

end NoiseFilter.Decimal
