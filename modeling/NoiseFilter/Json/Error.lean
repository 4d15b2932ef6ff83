import NoiseFilter.Decimal.Layout
import NoiseFilter.Text.Quoted

/-!
# Errors of JSON documents

An `Error` is the cause for which a document was refused. What a typed reader found in place of what it
expected is a `Found`; the wording of both is in `Error.message` and nowhere else.
-/

namespace NoiseFilter.Json

open Binary Decimal

/-- What stands in a document where something else was expected. -/
inductive Found
  | null
  | boolean (b : Bool)
  | integer (n : Int)
  | float (x : Double)
  | text (s : String)
  | list
  | object
deriving DecidableEq

/-- The description of what was found. -/
def Found.describe : Found → String
  | null => "null"
  | boolean b => "boolean `" ++ toString b ++ "`"
  | integer n => "integer `" ++ toString n ++ "`"
  | float x => "floating point `" ++ Layout.documentWide.text x ++ "`"
  | text s => "string " ++ Text.quoted s
  | list => "sequence"
  | object => "map"

/-- **Why a document was refused.** -/
inductive Error
  /-- the document ends inside a value, a list, an object or a text -/
  | endOfValue
  | endOfList
  | endOfObject
  | endOfText
  /-- something else stands where one thing has to stand -/
  | expectedColon
  | expectedListEnd
  | expectedObjectEnd
  | expectedWord
  | expectedValue
  | expectedKey
  /-- a number that is spelled wrong or too large -/
  | invalidNumber
  | numberOutOfRange
  /-- a text that is spelled wrong -/
  | invalidEscape
  | controlCharacter
  | loneSurrogate
  | missingSurrogate
  | invalidCharacter
  /-- something stands where nothing may -/
  | trailingComma
  | trailingCharacters
  /-- a field that was given before -/
  | duplicateField (name : String)
  /-- a value of another kind, or of the right kind and out of range -/
  | invalidType (found : Found) (expected : String)
  | invalidValue (found : Found) (expected : String)
deriving DecidableEq

/-- The message for a refused document. -/
def Error.message : Error → String
  | endOfValue => "EOF while parsing a value"
  | endOfList => "EOF while parsing a list"
  | endOfObject => "EOF while parsing an object"
  | endOfText => "EOF while parsing a string"
  | expectedColon => "expected `:`"
  | expectedListEnd => "expected `,` or `]`"
  | expectedObjectEnd => "expected `,` or `\x7d`"
  | expectedWord => "expected ident"
  | expectedValue => "expected value"
  | expectedKey => "key must be a string"
  | invalidNumber => "invalid number"
  | numberOutOfRange => "number out of range"
  | invalidEscape => "invalid escape"
  | controlCharacter => "control character (\\u0000-\\u001F) found while parsing a string"
  | loneSurrogate => "lone leading surrogate in hex escape"
  | missingSurrogate => "unexpected end of hex escape"
  | invalidCharacter => "invalid unicode code point"
  | trailingComma => "trailing comma"
  | trailingCharacters => "trailing characters"
  | duplicateField name => "duplicate field `" ++ name ++ "`"
  | invalidType found expected => "invalid type: " ++ found.describe ++ ", expected " ++ expected
  | invalidValue found expected => "invalid value: " ++ found.describe ++ ", expected " ++ expected

end NoiseFilter.Json
