import Mathlib.Data.List.DropRight
import NoiseFilter.Json.Reader

/-!
# The grammar of JSON documents

What a JSON document looks like is said here without saying how it is read. The grammar is one of bytes, as
the readers are.

* `Spells body text` – what stands between two quotes spells a text, with any of its characters escaped.
* `IsNumber`, `IsText`, `IsValue` – the spellings of values, of which nothing is asked but to be well-formed.
* `Member`, `objectText` – an object, member by member, with blanks between any two tokens.

A value ends where nothing comes that could go on with it (`Ends`): at a blank, at a comma, or with what is
around it.
-/

namespace NoiseFilter.Json

/-! ### Characters and bytes -/

/-- The bytes of a string. -/
def utf8 (s : String) : Bytes := s.toUTF8.toList

/-- A run of blanks. -/
def Blank (blanks : Bytes) : Prop := ∀ b ∈ blanks, isBlank b = true

/-- **What ends a value**: the end of the document, a blank, or what follows an item or a member. -/
def Ends (rest : Bytes) : Prop :=
  ∀ b ∈ rest.head?, isBlank b = true ∨ b = byte ',' ∨ b = byte ']' ∨ b = byte '\x7d'

/-! ### Texts -/

/-- The letters of escapes, with what they stand for. -/
def escapes : List (Char × Char) :=
  [('"', '"'), ('\\', '\\'), ('/', '/'), ('b', '\x08'), ('f', '\x0c'), ('n', '\n'), ('r', '\r'), ('t', '\t')]

/-- A hexadecimal digit, in either case of letters. -/
def HexDigit (b : UInt8) (n : Nat) : Prop :=
  n < 16 ∧ (b = byte (Nat.digitChar n) ∨ b = byte (Nat.digitChar n).toUpper)

/-- Four hexadecimal digits and their number. -/
inductive HexCode : Bytes → Nat → Prop
  | mk {w x y z : UInt8} {a b c d : Nat} :
      HexDigit w a → HexDigit x b → HexDigit y c → HexDigit z d →
        HexCode [w, x, y, z] (((a * 16 + b) * 16 + c) * 16 + d)

/-- **What stands between two quotes and the characters it spells.** A character above sixteen bits may be
escaped as a pair of codes. -/
inductive Spells : Bytes → List Char → Prop
  | nil : Spells [] []
  | plain {c : Char} {body : Bytes} {text : List Char} :
      c ≠ '"' → c ≠ '\\' → 32 ≤ c.toNat → Spells body text →
        Spells (String.utf8EncodeChar c ++ body) (c :: text)
  | letter {letter c : Char} {body : Bytes} {text : List Char} :
      (letter, c) ∈ escapes → Spells body text →
        Spells (byte '\\' :: byte letter :: body) (c :: text)
  | code {digits body : Bytes} {code : Nat} {text : List Char} :
      HexCode digits code → code < 0xd800 ∨ 0xdfff < code → Spells body text →
        Spells (byte '\\' :: byte 'u' :: digits ++ body) (Char.ofNat code :: text)
  | pair {digits digits' body : Bytes} {high low : Nat} {text : List Char} :
      HexCode digits (0xd800 + high) → high < 0x400 → HexCode digits' (0xdc00 + low) → low < 0x400 →
        Spells body text →
        Spells (byte '\\' :: byte 'u' :: digits ++ (byte '\\' :: byte 'u' :: digits' ++ body))
          (Char.ofNat (0x10000 + high * 0x400 + low) :: text)

/-- What stands between two quotes, of whatever meaning: a code may be half of a pair here, and a byte part of
no character. -/
inductive IsText : Bytes → Prop
  | nil : IsText []
  | plain {b : UInt8} {body : Bytes} : b ≠ byte '"' → b ≠ byte '\\' → 32 ≤ b → IsText body →
      IsText (b :: body)
  | letter {letter c : Char} {body : Bytes} : (letter, c) ∈ escapes → IsText body →
      IsText (byte '\\' :: byte letter :: body)
  | code {digits body : Bytes} {code : Nat} : HexCode digits code → IsText body →
      IsText (byte '\\' :: byte 'u' :: digits ++ body)

/-! ### Numbers -/

/-- A run of decimal digits. -/
def Digits (digits : Bytes) : Prop := ∀ b ∈ digits, isDigit b = true

/-- The digits before a point; a zero in front stands alone. -/
inductive IsWhole : Bytes → Prop
  | zero : IsWhole [byte '0']
  | digits {b : UInt8} {digits : Bytes} : b ≠ byte '0' → Digits (b :: digits) → IsWhole (b :: digits)

/-- A point and the digits after it, or nothing. -/
inductive IsFraction : Bytes → Prop
  | none : IsFraction []
  | digits {b : UInt8} {digits : Bytes} : Digits (b :: digits) → IsFraction (byte '.' :: b :: digits)

/-- A power of ten, or nothing. -/
inductive IsExponent : Bytes → Prop
  | none : IsExponent []
  | digits {mark : Char} {sign : Bytes} {b : UInt8} {digits : Bytes} : mark = 'e' ∨ mark = 'E' →
      sign = [] ∨ sign = [byte '+'] ∨ sign = [byte '-'] → Digits (b :: digits) →
        IsExponent (byte mark :: sign ++ b :: digits)

/-- **A number.** -/
inductive IsNumber : Bytes → Prop
  | mk {sign whole fraction exponent : Bytes} : sign = [] ∨ sign = [byte '-'] → IsWhole whole →
      IsFraction fraction → IsExponent exponent → IsNumber (sign ++ whole ++ fraction ++ exponent)

/-! ### Lists, objects and values -/

/-- Texts with commas between them. -/
def joined : List Bytes → Bytes
  | [] => []
  | text :: texts => text ++ texts.flatMap (byte ',' :: ·)

/-- An item of a list, with the blanks around it. -/
structure Item where
  before : Bytes
  value : Bytes
  after : Bytes

/-- An item as it stands in a list. -/
def Item.text (i : Item) : Bytes := i.before ++ i.value ++ i.after

/-- The blanks of an item are blanks. -/
structure Item.Spaced (i : Item) : Prop where
  before : Blank i.before
  after : Blank i.after

/-- **A member of an object**, with the blanks between its tokens. The key is what stands between its
quotes. -/
structure Member where
  before : Bytes
  key : Bytes
  afterKey : Bytes
  afterColon : Bytes
  value : Bytes
  after : Bytes

/-- A member after the quote that opens its key. -/
def Member.tail (m : Member) : Bytes :=
  m.key ++ byte '"' :: m.afterKey ++ byte ':' :: m.afterColon ++ m.value ++ m.after

/-- A member as it stands in an object. -/
def Member.text (m : Member) : Bytes := m.before ++ byte '"' :: m.tail

/-- The blanks of a member are blanks. -/
structure Member.Spaced (m : Member) : Prop where
  before : Blank m.before
  afterKey : Blank m.afterKey
  afterColon : Blank m.afterColon
  after : Blank m.after

/-- A list, with blanks before the bracket that ends it. -/
def listText (items : List Item) (blanks : Bytes) : Bytes :=
  byte '[' :: joined (items.map Item.text) ++ blanks ++ [byte ']']

/-- An object, with blanks before the brace that ends it. -/
def objectText (members : List Member) (blanks : Bytes) : Bytes :=
  byte '\x7b' :: joined (members.map Member.text) ++ blanks ++ [byte '\x7d']

/-- **A value**, nested to any depth. -/
inductive IsValue : Bytes → Prop
  | null : IsValue (utf8 "null")
  | boolean (b : Bool) : IsValue (utf8 (toString b))
  | number {value : Bytes} : IsNumber value → IsValue value
  | text {body : Bytes} : IsText body → IsValue (byte '"' :: body ++ [byte '"'])
  | list {items : List Item} {blanks : Bytes} : (∀ i ∈ items, i.Spaced) → Blank blanks →
      (∀ i ∈ items, IsValue i.value) → IsValue (listText items blanks)
  | object {members : List Member} {blanks : Bytes} : (∀ m ∈ members, m.Spaced) →
      (∀ m ∈ members, IsText m.key) → Blank blanks →
      (∀ m ∈ members, IsValue m.value) → IsValue (objectText members blanks)

/-! ### Objects with named members -/

/-- A member whose key spells a name. -/
structure Member.Named (m : Member) (name : String) : Prop where
  spaced : m.Spaced
  key : Spells m.key name.toList

/-- **An object and its members by their names**, in the order in which they stand. -/
def IsObject (text : Bytes) (members : List (String × Member)) : Prop :=
  (∀ m ∈ members, m.2.Named m.1) ∧
    ∃ blanks, Blank blanks ∧ text = objectText (members.map Prod.snd) blanks

/-- Each of some names comes once at most. -/
def OnceEach (names : List String) (members : List (String × Member)) : Prop :=
  members.Pairwise fun m m' => m.1 ∈ names → m.1 ≠ m'.1

/-- **What an object says under a name**: the value of that name is spelled as it should be, and if the name is
left out then something else holds. -/
structure Given (members : List (String × Member)) (name : String) (spelled : Bytes → Prop)
    (leftOut : Prop) : Prop where
  spelled : ∀ m ∈ members, m.1 = name → spelled m.2.value
  leftOut : name ∉ members.map Prod.fst → leftOut

/-! ### Laws of blanks and ends -/

section

variable {blanks blanks' input rest : Bytes}

theorem blank_nil : Blank [] := nofun

theorem Blank.append (h : Blank blanks) (h' : Blank blanks') : Blank (blanks ++ blanks') := by
  intro b hb
  rcases List.mem_append.1 hb with hb | hb
  · exact h b hb
  · exact h' b hb

/-- Blanks in front are skipped. -/
theorem Blank.skip (h : Blank blanks) (input : Bytes) : skipBlanks (blanks ++ input) = skipBlanks input :=
  List.dropWhile_append_of_pos h

/-- A byte that is no blank stays in front. -/
theorem skipBlanks_cons {b : UInt8} (h : isBlank b = false) (input : Bytes) :
    skipBlanks (b :: input) = b :: input :=
  List.dropWhile_cons_of_neg (by simp [h])

theorem skipBlanks_append {b : UInt8} {after : Bytes} (h : skipBlanks input = b :: after) (rest : Bytes) :
    skipBlanks (input ++ rest) = b :: (after ++ rest) := by
  have happend : skipBlanks (input ++ rest) =
      if (skipBlanks input).isEmpty then skipBlanks rest else skipBlanks input ++ rest := List.dropWhile_append
  rw [happend, h]
  rfl

theorem skipBlanks_skipBlanks (input : Bytes) : skipBlanks (skipBlanks input) = skipBlanks input :=
  List.dropWhile_idempotent _ _

theorem ends_nil : Ends [] := nofun

theorem Ends.blank (h : Blank blanks) (hrest : Ends rest) : Ends (blanks ++ rest) := by
  cases blanks with
  | nil => exact hrest
  | cons b blanks =>
    rintro b' ⟨⟩
    exact .inl (h _ List.mem_cons_self)

theorem ends_comma (rest : Bytes) : Ends (byte ',' :: rest) := by
  rintro b ⟨⟩
  exact .inr (.inl rfl)

theorem ends_bracket (rest : Bytes) : Ends (byte ']' :: rest) := by
  rintro b ⟨⟩
  exact .inr (.inr (.inl rfl))

theorem ends_brace (rest : Bytes) : Ends (byte '\x7d' :: rest) := by
  rintro b ⟨⟩
  exact .inr (.inr (.inr rfl))

end

end NoiseFilter.Json
