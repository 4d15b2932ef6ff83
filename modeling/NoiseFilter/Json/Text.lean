import NoiseFilter.Json.Reader

/-!
# Texts of JSON documents

A text is read up to the quote that closes it. Escapes are replaced by what they stand for, and a code
above sixteen bits is written as two escapes, a high and a low surrogate. Only the finished text is
checked for being well-formed UTF-8, so a text that does not end is reported before one that is
malformed.

A text whose content does not matter is passed over more lightly (`skipText`): its escapes have to be
spelled right, and that is all.
-/

namespace NoiseFilter.Json

/-- The value of a hexadecimal digit. -/
def hexDigit? (b : UInt8) : Option Nat :=
  if isDigit b then some (digit b)
  else if byte 'a' ≤ b && b ≤ byte 'f' then some (b.toNat - (byte 'a').toNat + 10)
  else if byte 'A' ≤ b && b ≤ byte 'F' then some (b.toNat - (byte 'A').toNat + 10)
  else none

/-- **The code of four hexadecimal digits** at the start of the input. -/
def hexCode (input : Bytes) : Except Error Nat :=
  match input with
  | a :: b :: c :: d :: _ =>
    match hexDigit? a, hexDigit? b, hexDigit? c, hexDigit? d with
    | some a, some b, some c, some d => .ok (((a * 16 + b) * 16 + c) * 16 + d)
    | _, _, _, _ => .error .invalidEscape
  | _ => .error .endOfText

/-- Whether a code is the first half of a pair. -/
def isHighSurrogate (code : Nat) : Bool := 0xd800 ≤ code && code ≤ 0xdbff

/-- Whether a code is the second half of a pair. -/
def isLowSurrogate (code : Nat) : Bool := 0xdc00 ≤ code && code ≤ 0xdfff

/-- The bytes of a character. -/
def charBytes (code : Nat) : Bytes := String.utf8EncodeChar (Char.ofNat code)

/-- **A code escape** after its backslash and letter: what it stands for, and how many bytes it takes
from there. -/
def codeEscape (input : Bytes) : Except Error (Bytes × Nat) :=
  match hexCode input with
  | .error e => .error e
  | .ok code =>
    if isLowSurrogate code then .error .loneSurrogate
    else if isHighSurrogate code then
      match input.drop 4 with
      | [] => .error .endOfText
      | b :: rest =>
        if b ≠ byte '\\' then .error .missingSurrogate
        else match rest with
          | [] => .error .endOfText
          | b :: rest =>
            if b ≠ byte 'u' then .error .missingSurrogate
            else match hexCode rest with
              | .error e => .error e
              | .ok low =>
                if isLowSurrogate low then
                  .ok (charBytes (0x10000 + (code - 0xd800) * 0x400 + (low - 0xdc00)), 10)
                else .error .loneSurrogate
    else .ok (charBytes code, 4)

/-- What an escape by a letter stands for. -/
def letterEscape? (letter : UInt8) : Option UInt8 :=
  if letter = byte '"' || letter = byte '\\' || letter = byte '/' then some letter
  else if letter = byte 'b' then some 8
  else if letter = byte 'f' then some 12
  else if letter = byte 'n' then some (byte '\n')
  else if letter = byte 'r' then some (byte '\r')
  else if letter = byte 't' then some (byte '\t')
  else none

/-- **An escape** after its backslash: what it stands for, and how many bytes it takes from there. -/
def readEscape (input : Bytes) : Except Error (Bytes × Nat) :=
  match input with
  | [] => .error .endOfText
  | letter :: rest =>
    match letterEscape? letter with
    | some b => .ok ([b], 1)
    | none =>
      if letter = byte 'u' then (codeEscape rest).map fun (bytes, taken) => (bytes, taken + 1)
      else .error .invalidEscape

/-- The bytes of a text up to its closing quote, in front of them those of `done`, latest first. -/
def readBytes (done : Bytes) (input : Bytes) : Except Error (Bytes × Bytes) :=
  match input with
  | [] => .error .endOfText
  | b :: rest =>
    if b = byte '"' then .ok (done.reverse, rest)
    else if b = byte '\\' then
      match readEscape rest with
      | .error e => .error e
      | .ok (bytes, taken) => readBytes (bytes.reverse ++ done) (rest.drop taken)
    else if b < 32 then .error .controlCharacter
    else readBytes (b :: done) rest
termination_by input.length
decreasing_by all_goals (simp only [List.length_drop, List.length_cons]; omega)

/-- The text of some bytes, if they are well-formed UTF-8. -/
def utf8? (bytes : Bytes) : Option String := String.fromUTF8? ⟨bytes.toArray⟩

/-- **A text**, its opening quote already read. -/
def readText : Reader String := fun input =>
  match readBytes [] input with
  | .error e => .error e
  | .ok (bytes, rest) => match utf8? bytes with
    | some text => .ok (text, rest)
    | none => .error .invalidCharacter

/-- An escape passed over after its backslash: how many bytes it takes from there. -/
def skipEscape (input : Bytes) : Except Error Nat :=
  match input with
  | [] => .error .endOfText
  | letter :: rest =>
    if (letterEscape? letter).isSome then .ok 1
    else if letter = byte 'u' then (hexCode rest).map fun _ => 5
    else .error .invalidEscape

/-- **A text passed over**, its opening quote already read. -/
def skipText (input : Bytes) : Except Error Bytes :=
  match input with
  | [] => .error .endOfText
  | b :: rest =>
    if b = byte '"' then .ok rest
    else if b = byte '\\' then
      match skipEscape rest with
      | .error e => .error e
      | .ok taken => skipText (rest.drop taken)
    else if b < 32 then .error .controlCharacter
    else skipText rest
termination_by input.length
decreasing_by all_goals (simp only [List.length_drop, List.length_cons]; omega)

end NoiseFilter.Json
