import NoiseFilter.Bytes.Words
import NoiseFilter.Json.Error

/-!
# Readers of JSON documents

A document is read as bytes, from its start, in one pass. A `Reader` takes what it reads off the front
and hands on the rest; it stops at the first thing that is wrong, so of two mistakes in a document the
first one is reported.
-/

namespace NoiseFilter.Json

/-- **A reader**: what was read and the bytes after it, or why the document is refused. -/
abbrev Reader (α : Type) := Bytes → Except Error (α × Bytes)

/-- What is read, with a function applied to it. -/
def Reader.map {α β : Type} (f : α → β) (r : Reader α) : Reader β := fun input =>
  match r input with
  | .error e => .error e
  | .ok (a, rest) => .ok (f a, rest)

/-- The byte of an ASCII character. -/
def byte (c : Char) : UInt8 := UInt8.ofNat c.toNat

/-- Whether a byte is a blank between tokens. -/
def isBlank (b : UInt8) : Bool :=
  b == byte ' ' || b == byte '\n' || b == byte '\t' || b == byte '\r'

/-- The input without the blanks at its start. -/
def skipBlanks (input : Bytes) : Bytes := input.dropWhile isBlank

/-- Whether a byte is a decimal digit. -/
def isDigit (b : UInt8) : Bool := byte '0' ≤ b && b ≤ byte '9'

/-- The value of a decimal digit. -/
def digit (b : UInt8) : Nat := b.toNat - (byte '0').toNat

/-- The rest of a word whose first letter was read. -/
def word : List Char → Bytes → Except Error Bytes
  | [], input => .ok input
  | _ :: _, [] => .error .endOfValue
  | c :: cs, b :: rest => if b = byte c then word cs rest else .error .expectedWord

/-- **A whole document**: one value, and nothing after it but blanks. -/
def readAll {α : Type} (r : Reader α) (input : Bytes) : Except Error α :=
  match r input with
  | .error e => .error e
  | .ok (a, rest) => if (skipBlanks rest).isEmpty then .ok a else .error .trailingCharacters

/-! ### Lists and objects, one item after the other -/

/-- **The next item of a list**: the input at the item, or the input after the bracket that ends the
list. A comma has to stand before every item but the first. -/
def nextItem (first : Bool) (input : Bytes) : Except Error (Bytes ⊕ Bytes) :=
  match skipBlanks input with
  | [] => .error .endOfList
  | b :: rest =>
    if b = byte ']' then .ok (.inr rest)
    else if first then .ok (.inl (b :: rest))
    else if b = byte ',' then
      match skipBlanks rest with
      | [] => .ok (.inl [])
      | b :: rest => if b = byte ']' then .error .trailingComma else .ok (.inl (b :: rest))
    else .error .expectedListEnd

/-- **The end of a list** in which nothing more is expected. -/
def endList (input : Bytes) : Except Error Bytes :=
  match skipBlanks input with
  | [] => .error .endOfList
  | b :: rest =>
    if b = byte ']' then .ok rest
    else if b = byte ',' then
      match skipBlanks rest with
      | [] => .error .trailingCharacters
      | b :: _ => if b = byte ']' then .error .trailingComma else .error .trailingCharacters
    else .error .trailingCharacters

/-- **The next key of an object**: the input after the quote that opens the key, or the input after the
brace that ends the object. -/
def nextKey (first : Bool) (input : Bytes) : Except Error (Bytes ⊕ Bytes) :=
  match skipBlanks input with
  | [] => .error .endOfObject
  | b :: rest =>
    if b = byte '\x7d' then .ok (.inr rest)
    else if first then
      if b = byte '"' then .ok (.inl rest) else .error .expectedKey
    else if b = byte ',' then
      match skipBlanks rest with
      | [] => .error .endOfValue
      | b :: rest =>
        if b = byte '"' then .ok (.inl rest)
        else if b = byte '\x7d' then .error .trailingComma
        else .error .expectedKey
    else .error .expectedObjectEnd

/-- The colon between a key and its value. -/
def colon (input : Bytes) : Except Error Bytes :=
  match skipBlanks input with
  | [] => .error .endOfObject
  | b :: rest => if b = byte ':' then .ok rest else .error .expectedColon

end NoiseFilter.Json
