import NoiseFilter.Text.Shown

/-!
# Quoted text in messages

A message that quotes a text puts it between double quotes and escapes what would not show: the quote
and the backslash, the line ends and tabs by a letter, and every other character that is not
`isShown` by its code.
-/

namespace NoiseFilter.Text

/-- The escape of a character by its code. -/
def codeEscape (c : Char) : List Char :=
  ['\\', 'u', '\x7b'] ++ Nat.toDigits 16 c.toNat ++ ['\x7d']

/-- A character inside a quoted text. -/
def escape (c : Char) : List Char :=
  match c with
  | '\x00' => ['\\', '0']
  | '\t' => ['\\', 't']
  | '\n' => ['\\', 'n']
  | '\r' => ['\\', 'r']
  | '"' => ['\\', '"']
  | '\\' => ['\\', '\\']
  | c => if isShown c then [c] else codeEscape c

/-- **A text between quotes.** -/
def quoted (text : String) : String :=
  String.ofList ('"' :: text.toList.flatMap escape ++ ['"'])

end NoiseFilter.Text
