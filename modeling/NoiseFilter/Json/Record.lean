import NoiseFilter.Json.Skip

/-!
# Typed values of JSON documents

A document that is read for its content is read by what is expected of it. The readers here expect a
boolean, a number of some kind, or a **record**: a fixed list of named fields, each with a reader of its
own. A record may be written in two ways,

* as an object, with its fields in any order, fields left out, and other keys passed over;
* as a list of its fields in order, with fields left out at the end,

and a field that is left out keeps the value it has in the record that reading starts from.
-/

namespace NoiseFilter.Json

open Binary

/-! ### What was found instead -/

/-- **The error for a value that is not of the expected kind**, the value being at the start of the
input. A value that is itself malformed is reported as that. -/
def wrongType (expected : String) (input : Bytes) : Error :=
  match number? input with
  | some (negative, rest) =>
    match readNumber negative rest with
    | .error e => e
    | .ok (n, _) => .invalidType n.found expected
  | none =>
    match input with
    | [] => .endOfValue
    | b :: rest =>
      let afterWord (letters : List Char) (found : Found) : Error :=
        match word letters rest with
        | .error e => e
        | .ok _ => .invalidType found expected
      if b = byte 'n' then afterWord ['u', 'l', 'l'] .null
      else if b = byte 't' then afterWord ['r', 'u', 'e'] (.boolean true)
      else if b = byte 'f' then afterWord ['a', 'l', 's', 'e'] (.boolean false)
      else if b = byte '"' then
        match readText rest with
        | .error e => e
        | .ok (text, _) => .invalidType (.text text) expected
      else if b = byte '[' then .invalidType .list expected
      else if b = byte '\x7b' then .invalidType .object expected
      else .expectedValue

/-! ### Simple values -/

/-- **A boolean.** -/
def readBool : Reader Bool := fun input =>
  match skipBlanks input with
  | [] => .error .endOfValue
  | b :: rest =>
    if b = byte 't' then (word ['r', 'u', 'e'] rest).map fun rest => (true, rest)
    else if b = byte 'f' then (word ['a', 'l', 's', 'e'] rest).map fun rest => (false, rest)
    else .error (wrongType "a boolean" (b :: rest))

/-- A number, turned into something by a function that may refuse it. -/
def readNumberAs {α : Type} (expected : String) (use : Number → Except Error α) : Reader α :=
  fun input =>
    let input := skipBlanks input
    if input.isEmpty then .error .endOfValue
    else match number? input with
      | none => .error (wrongType expected input)
      | some (negative, rest) =>
        match readNumber negative rest with
        | .error e => .error e
        | .ok (n, rest) => (use n).map fun a => (a, rest)

/-- **A number as a value of 32 bits.** Every number is one, if need be infinite. -/
def readSingle : Reader Single := readNumberAs "f32" fun n => .ok n.toSingle

/-- **A natural number below a limit.** -/
def readNatural (expected : String) (limit : Nat) : Reader Nat :=
  readNumberAs expected fun n =>
    match n with
    | .natural n =>
      if n < limit then .ok n else .error (.invalidValue (.integer n) expected)
    | .negative size => .error (.invalidValue (.integer (-size)) expected)
    | .float x => .error (.invalidType (.float x) expected)

/-! ### Records -/

/-- A field of a record: its name, and a reader of what the field does to the record. -/
structure RecordField (record : Type) where
  name : String
  read : Reader (record → record)

/-- A field that is read by `r` and put into the record by `set`. -/
def RecordField.of {record α : Type} (name : String) (r : Reader α) (set : α → record → record) :
    RecordField record :=
  ⟨name, r.map set⟩

variable {record : Type}

/-- **The fields of a record in order**, as items of a list. -/
def readItems : List (RecordField record) → Bool → record → Reader record
  | [], _, r, input => (endList input).map fun rest => (r, rest)
  | field :: fields, first, r, input =>
    match nextItem first input with
    | .error e => .error e
    | .ok (.inr rest) => .ok (r, rest)
    | .ok (.inl input) =>
      match field.read input with
      | .error e => .error e
      | .ok (set, rest) => readItems fields false (set r) rest

/-- **One member of an object** after the quote that opens its key, in an input of no more than `bound`
bytes. `seen` are the names of the fields that were read; one may not come again. -/
def readMember (fields : List (RecordField record)) (bound : Nat) (seen : List String) (r : record)
    (input : Bytes) : Except Error ((record × List String) × Bytes) :=
  match readText input with
  | .error e => .error e
  | .ok (key, rest) =>
    match fields.find? fun field => field.name == key with
    | none =>
      match colon rest with
      | .error e => .error e
      | .ok rest => (skipValue bound rest).map fun rest => ((r, seen), rest)
    | some field =>
      if seen.contains field.name then .error (.duplicateField field.name)
      else match colon rest with
        | .error e => .error e
        | .ok rest => match field.read rest with
          | .error e => .error e
          | .ok (set, rest) => .ok ((set r, field.name :: seen), rest)

/-- **The members of an object**, at most `steps` of them. A member takes more than one byte, so steps
that exceed the input's length at first exceed it after every member. -/
def readMembers (fields : List (RecordField record)) :
    Nat → Bool → List String → record → Reader record
  | 0, _, _, _, _ => .error .endOfObject
  | steps + 1, first, seen, r, input =>
    match nextKey first input with
    | .error e => .error e
    | .ok (.inr rest) => .ok (r, rest)
    | .ok (.inl input) =>
      match readMember fields steps seen r input with
      | .error e => .error e
      | .ok ((r, seen), rest) => readMembers fields steps false seen r rest

/-- **A record**, written either way. Every member of an object takes a byte of the input, so the
input's length bounds their number. -/
def readRecord (expected : String) (fields : List (RecordField record)) (start : record) :
    Reader record := fun input =>
  match skipBlanks input with
  | [] => .error .endOfValue
  | b :: rest =>
    if b = byte '[' then readItems fields true start rest
    else if b = byte '\x7b' then readMembers fields (rest.length + 1) true [] start rest
    else .error (wrongType expected (b :: rest))

end NoiseFilter.Json
