import NoiseFilter.Json.Number
import NoiseFilter.Json.Text

/-!
# Values passed over

A value that nobody asks for still has to be well-formed. It is passed over with a stack of the lists
and objects that are open, so its nesting has no limit.
-/

namespace NoiseFilter.Json

/-- What can be open around a value. -/
inductive Enclosure
  | list
  | object
deriving DecidableEq, Repr

namespace Enclosure

/-- The byte that ends it. -/
def close : Enclosure → UInt8
  | list => byte ']'
  | object => byte '\x7d'

/-- The error where the document ends inside it. -/
def atEnd : Enclosure → Error
  | list => .endOfList
  | object => .endOfObject

/-- The error where an item is followed by something else than a comma or the end. -/
def expectedEnd : Enclosure → Error
  | list => .expectedListEnd
  | object => .expectedObjectEnd

/-- Up to the next value inside it: at once in a list, after a key and a colon in an object. -/
def enter (e : Enclosure) (input : Bytes) : Except Error Bytes :=
  match e with
  | list => .ok input
  | object =>
    match skipBlanks input with
    | [] => .error .endOfObject
    | b :: rest =>
      if b = byte '"' then
        match skipText rest with
        | .error e => .error e
        | .ok rest => colon rest
      else .error .expectedKey

end Enclosure

/-- What starts with a value: something that is over with it, or something that is open after it. -/
def skipStart (b : UInt8) (rest : Bytes) : Except Error (Option Enclosure × Bytes) :=
  let scalar (r : Except Error Bytes) : Except Error (Option Enclosure × Bytes) :=
    r.map fun rest => (none, rest)
  if b = byte 'n' then scalar (word ['u', 'l', 'l'] rest)
  else if b = byte 't' then scalar (word ['r', 'u', 'e'] rest)
  else if b = byte 'f' then scalar (word ['a', 'l', 's', 'e'] rest)
  else if b = byte '-' then scalar (skipNumber rest)
  else if isDigit b then scalar (skipNumber (b :: rest))
  else if b = byte '"' then scalar (skipText rest)
  else if b = byte '[' then .ok (some .list, rest)
  else if b = byte '\x7b' then .ok (some .object, rest)
  else .error .expectedValue

/-- Where the pass over a value stands. -/
inductive SkipPlace
  /-- a value comes next -/
  | value
  /-- a value is over, or, without `comma`, an enclosure was just opened -/
  | after (comma : Bool)

/-- The pass over a value with enclosures open around it, the innermost first, in so many steps at
most. Every second step takes a byte off the input, so twice the input's length is steps enough. -/
def skipSteps : Nat → SkipPlace → List Enclosure → Bytes → Except Error Bytes
  | 0, _, _, _ => .error .endOfValue
  | _ + 1, .after _, [], input => .ok input
  | steps + 1, .after comma, e :: outer, input =>
    match skipBlanks input with
    | [] => .error e.atEnd
    | b :: rest =>
      if comma && b = byte ',' then
        match e.enter rest with
        | .error err => .error err
        | .ok rest => skipSteps steps .value (e :: outer) rest
      else if b = e.close then skipSteps steps (.after true) outer rest
      else if comma then .error e.expectedEnd
      else match e.enter (b :: rest) with
        | .error err => .error err
        | .ok rest => skipSteps steps .value (e :: outer) rest
  | steps + 1, .value, open_, input =>
    match skipBlanks input with
    | [] => .error .endOfValue
    | b :: rest =>
      match skipStart b rest with
      | .error err => .error err
      | .ok (none, rest) => skipSteps steps (.after true) open_ rest
      | .ok (some e, rest) => skipSteps steps (.after false) (e :: open_) rest

/-- **A value passed over**, in an input that has no more than `bound` bytes. -/
def skipValue (bound : Nat) (input : Bytes) : Except Error Bytes :=
  skipSteps (2 * bound + 2) .value [] input

end NoiseFilter.Json
