import NoiseFilter.Decimal.Layout

/-!
# Writing JSON documents

A document to be written is a tree of objects with booleans and numbers at its leaves. It has two
spellings: `Document.compact` in one line without blanks, and `Document.pretty` with one member a line,
indented by two blanks.
-/

namespace NoiseFilter.Json

open Binary Decimal

/-- **A document to be written.** Keys are plain names, which need no escapes. -/
inductive Document
  | null
  | boolean (b : Bool)
  | natural (n : Nat)
  | single (x : Single)
  | object (members : List (String × Document))

namespace Document

/-- A number of 32 bits; what is no finite number is written as null. -/
def singleText (x : Single) : String := if x.isFinite then Layout.document.text x else "null"

/-- A key between quotes. -/
def keyText (key : String) : String := "\"" ++ key ++ "\""

/-- A line end, and blanks for a depth of nesting. -/
def newLine (depth : Nat) : String := String.ofList ('\n' :: List.replicate (2 * depth) ' ')

mutual

/-- **In one line.** -/
def compact : Document → String
  | null => "null"
  | boolean b => toString b
  | natural n => toString n
  | single x => singleText x
  | object members => "\x7b" ++ ",".intercalate (compactMembers members) ++ "\x7d"

/-- The members of an object in one line, each with its key. -/
def compactMembers : List (String × Document) → List String
  | [] => []
  | (key, d) :: rest => (keyText key ++ ":" ++ d.compact) :: compactMembers rest

end

mutual

/-- **With a line for every member**, at some depth of nesting. -/
def prettyAt (depth : Nat) : Document → String
  | null => "null"
  | boolean b => toString b
  | natural n => toString n
  | single x => singleText x
  | object [] => "\x7b\x7d"
  | object members =>
    "\x7b" ++ ",".intercalate (prettyMembers (depth + 1) members) ++ newLine depth ++ "\x7d"

/-- The members of an object, each on a line of its own. -/
def prettyMembers (depth : Nat) : List (String × Document) → List String
  | [] => []
  | (key, d) :: rest =>
    (newLine depth ++ keyText key ++ ": " ++ d.prettyAt depth) :: prettyMembers depth rest

end

/-- With a line for every member. -/
def pretty (d : Document) : String := d.prettyAt 0

end Document

end NoiseFilter.Json
