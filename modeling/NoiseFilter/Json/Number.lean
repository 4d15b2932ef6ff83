import NoiseFilter.Json.Reader

/-!
# Numbers of JSON documents

A number without fraction and exponent is a whole number as long as its size fits 64 bits; every other
number is a floating point value of 64 bits. That value is computed, not rounded from the exact decimal:
the leading digits that fit 64 bits are a significand, every digit after them counts as a power of ten
or is left out, and the significand is then multiplied or divided by one rounded power of ten.
-/

namespace NoiseFilter.Json

open Binary

/-- **A number in a document.** -/
inductive Number
  | natural (n : Nat)
  /-- a whole number below zero, by its size -/
  | negative (size : Nat)
  | float (x : Double)
deriving DecidableEq

namespace Number

/-- What the number is found to be, where something else was expected. -/
def found : Number → Found
  | natural n => .integer n
  | negative n => .integer (-n)
  | float x => .float x

/-- The number as a value of 32 bits, rounded once from the number that was read. -/
def toSingle : Number → Single
  | natural n => .ofInt n
  | negative n => .ofInt (-n)
  | float x => x.convert .single

end Number

/-- Significands are smaller than this. -/
def significandLimit : Nat := 0x10000000000000000

/-- The largest exponent that is read as a number. -/
def exponentLimit : Nat := 0x7fffffff

/-- The largest power of ten that is a value of 64 bits. -/
def largestPower : Nat := 308

/-- A power of ten, rounded. -/
def tenTo (n : Nat) : Double := .ofNat (Nat.pow 10 n)

/-- **A significand times a power of ten.** A step of `largestPower` down leaves less than that step's
size of a significand of 64 bits, and two steps leave nothing. -/
def scale (x : Double) (exponent : Int) : Except Error Double :=
  if (largestPower : Int) < exponent then
    if x = .zero then .ok x else .error .numberOutOfRange
  else if 0 ≤ exponent then
    let y := x.mul (tenTo exponent.toNat)
    if y.isFinite then .ok y else .error .numberOutOfRange
  else if -(largestPower : Int) ≤ exponent then .ok (x.div (tenTo (-exponent).toNat))
  else if -(2 * largestPower : Int) ≤ exponent then
    .ok ((x.div (tenTo largestPower)).div (tenTo (-exponent - largestPower).toNat))
  else .ok .zero

/-- A signed significand times a power of ten, with what follows it in the document. -/
def ofParts (negative : Bool) (significand : Nat) (exponent : Int) (rest : Bytes) :
    Except Error (Number × Bytes) :=
  match scale (.ofNat significand) exponent with
  | .error e => .error e
  | .ok x => .ok (.float (if negative then x.neg else x), rest)

/-- **Digits onto a significand** as long as it stays below the limit: the significand, how many
digits were taken, and the rest. -/
def takeDigits (significand taken : Nat) : Bytes → Nat × Nat × Bytes
  | [] => (significand, taken, [])
  | b :: rest =>
    let next := significand * 10 + digit b
    if isDigit b && next < significandLimit then takeDigits next (taken + 1) rest
    else (significand, taken, b :: rest)

/-- Digits passed over: how many, and the rest. -/
def passDigits (input : Bytes) : Nat × Bytes :=
  ((input.takeWhile isDigit).length, input.dropWhile isDigit)

/-- Whether the input goes on with the mark of an exponent. -/
def startsExponent : Bytes → Bool
  | b :: _ => b == byte 'e' || b == byte 'E'
  | [] => false

/-- The size of an exponent with one digit more. Beyond the limit it stays as it is. -/
def appendDigit (size : Nat) (b : UInt8) : Nat :=
  if exponentLimit < size then size else size * 10 + digit b

/-- **An exponent**, its mark not yet read. `start` is the exponent that the digits before it have. -/
def readExponent (negative : Bool) (significand : Nat) (start : Int) (input : Bytes) :
    Except Error (Number × Bytes) :=
  let (down, input) := match input.drop 1 with
    | b :: rest =>
      if b = byte '-' then (true, rest)
      else if b = byte '+' then (false, rest)
      else (false, b :: rest)
    | [] => (false, [])
  match input with
  | [] => .error .endOfValue
  | b :: _ =>
    if isDigit b then
      let size := (input.takeWhile isDigit).foldl appendDigit 0
      let rest := input.dropWhile isDigit
      if exponentLimit < size then
        if significand = 0 ∨ down then ofParts negative 0 0 rest else .error .numberOutOfRange
      else ofParts negative significand (if down then start - size else start + size) rest
    else .error .invalidNumber

/-- A number whose digits are read, up to its exponent if it has one. -/
def finish (negative : Bool) (significand : Nat) (exponent : Int) (input : Bytes) :
    Except Error (Number × Bytes) :=
  if startsExponent input then readExponent negative significand exponent input
  else ofParts negative significand exponent input

/-- **A fraction**, its point already read. Digits beyond the limit of the significand are left out. -/
def readFraction (negative : Bool) (significand : Nat) (exponent : Int) (input : Bytes) :
    Except Error (Number × Bytes) :=
  let (significand, taken, input) := takeDigits significand 0 input
  match input with
  | b :: _ =>
    if isDigit b then finish negative significand (exponent - taken) (passDigits input).2
    else if taken = 0 then .error .invalidNumber
    else finish negative significand (exponent - taken) input
  | [] =>
    if taken = 0 then .error .endOfValue else finish negative significand (exponent - taken) []

/-- A whole number, by its sign and size. Below zero it has to fit 64 bits with a sign; a zero with a
sign is none. -/
def whole (negative : Bool) (size : Nat) : Number :=
  if !negative then .natural size
  else if size = 0 ∨ significandLimit / 2 < size then .float (Value.neg (.ofNat size))
  else .negative size

/-- What follows the digits before a point: a fraction, an exponent, or nothing. -/
def readTail (negative : Bool) (significand : Nat) (input : Bytes) : Except Error (Number × Bytes) :=
  match input with
  | b :: rest =>
    if b = byte '.' then readFraction negative significand 0 rest
    else if startsExponent input then readExponent negative significand 0 input
    else .ok (whole negative significand, input)
  | [] => .ok (whole negative significand, [])

/-- **A number**, its sign already read. A zero in front stands alone. -/
def readNumber (negative : Bool) : Reader Number
  | [] => .error .endOfValue
  | b :: rest =>
    if b = byte '0' then
      match rest with
      | d :: _ => if isDigit d then .error .invalidNumber else readTail negative 0 rest
      | [] => readTail negative 0 []
    else if isDigit b then
      let (significand, _, input) := takeDigits 0 0 (b :: rest)
      match input with
      | d :: _ =>
        if isDigit d then
          let (more, input) := passDigits input
          match input with
          | p :: rest =>
            if p = byte '.' then readFraction negative significand more rest
            else finish negative significand more input
          | [] => finish negative significand more []
        else readTail negative significand input
      | [] => readTail negative significand []
    else .error .invalidNumber

/-- **Whether a number starts here**: its sign, and the input after the sign. -/
def number? : Bytes → Option (Bool × Bytes)
  | [] => none
  | b :: rest =>
    if b = byte '-' then some (true, rest) else if isDigit b then some (false, b :: rest) else none

/-! ### Numbers passed over -/

/-- An exponent passed over, its mark not yet read. -/
def skipExponent (input : Bytes) : Except Error Bytes :=
  let input := match input.drop 1 with
    | b :: rest => if b = byte '-' || b = byte '+' then rest else b :: rest
    | [] => []
  match input with
  | b :: _ => if isDigit b then .ok (passDigits input).2 else .error .invalidNumber
  | [] => .error .invalidNumber

/-- A number passed over, its sign already read. Where its spelling breaks off it counts as spelled
wrong. -/
def skipNumber (input : Bytes) : Except Error Bytes :=
  let afterDigits (input : Bytes) : Except Error Bytes :=
    match input with
    | b :: rest =>
      if b = byte '.' then
        let (count, rest) := passDigits rest
        if count = 0 then .error .invalidNumber
        else if startsExponent rest then skipExponent rest
        else .ok rest
      else if startsExponent input then skipExponent input
      else .ok input
    | [] => .ok []
  match input with
  | [] => .error .invalidNumber
  | b :: rest =>
    if b = byte '0' then
      match rest with
      | d :: _ => if isDigit d then .error .invalidNumber else afterDigits rest
      | [] => .ok []
    else if isDigit b then afterDigits (passDigits rest).2
    else .error .invalidNumber

end NoiseFilter.Json
