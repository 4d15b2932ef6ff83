import NoiseFilter.Json.Text
import NoiseFilter.Proofs.Json.Grammar

/-!
# Texts are read as they are spelled

Whatever way a text is spelled, with its characters plain or escaped, reading it up to the closing quote gives
the characters back (`Spells.readText`). The induction is on the spelling. What is read so far is kept latest
byte first, so each step puts the bytes of one character in front of it in reverse; the bytes of the whole
text are then well-formed because they are the bytes of characters (`utf8?_utf8`).

Passing over a text takes the weaker grammar `IsText` (`IsText.skipText`), in which nothing is said of what the
bytes mean.
-/

namespace NoiseFilter.Json

/-! ### The bytes of strings -/

/-- The list of a byte array is made byte by byte, the latest in front. -/
theorem toList_loop_eq (bytes : ByteArray) {left i : Nat} (h : bytes.size - i = left) (done : Bytes) :
    ByteArray.toList.loop bytes i done = done.reverse ++ bytes.data.toList.drop i := by
  induction left generalizing i done with
  | zero =>
    have hi : bytes.size ≤ i := Nat.sub_eq_zero_iff_le.1 h
    rw [ByteArray.toList.loop, if_neg (Nat.not_lt.2 hi), List.drop_eq_nil_of_le hi, List.append_nil]
  | succ left ih =>
    have hi : i < bytes.size := Nat.lt_of_sub_eq_succ h
    have hget : bytes.get! i = bytes.data.toList.get ⟨i, hi⟩ := getElem!_pos bytes.data i hi
    rw [ByteArray.toList.loop, if_pos hi, ih (by omega), hget, List.reverse_cons, List.append_assoc,
      List.singleton_append, List.get_eq_getElem, List.getElem_cons_drop]

theorem utf8_eq (s : String) : utf8 s = s.toByteArray.data.toList := by
  rw [utf8, String.toUTF8_eq_toByteArray, ByteArray.toList, toList_loop_eq _ rfl]
  rfl

theorem utf8_append (s t : String) : utf8 (s ++ t) = utf8 s ++ utf8 t := by
  simp [utf8_eq]

/-- The bytes of some characters, one character after the other. -/
theorem utf8_ofList (text : List Char) :
    utf8 (String.ofList text) = text.flatMap String.utf8EncodeChar := by
  rw [utf8_eq, String.toByteArray_ofList, List.utf8Encode, List.toList_data_toByteArray]

/-- **The bytes of a string are well-formed**, and the string is got back from them. -/
theorem utf8?_utf8 (s : String) : utf8? (utf8 s) = some s := by
  have hbytes : (⟨(utf8 s).toArray⟩ : ByteArray) = s.toByteArray := by rw [utf8_eq, Array.toArray_toList]
  rw [utf8?, hbytes, String.fromUTF8?, dif_pos s.isValidUTF8]
  rfl

/-- A character of seven bits is one byte. -/
theorem encodeChar_ascii {c : Char} (h : c.toNat < 128) : String.utf8EncodeChar c = [byte c] :=
  if_pos (Nat.le_of_lt_succ h)

theorem utf8_ascii (text : List Char) (h : ∀ c ∈ text, c.toNat < 128) :
    utf8 (String.ofList text) = text.map byte := by
  rw [utf8_ofList]
  induction text with
  | nil => rfl
  | cons c text ih =>
    rw [List.flatMap_cons, encodeChar_ascii (h c List.mem_cons_self),
      ih fun d hd => h d (List.mem_cons_of_mem c hd)]
    rfl

/-! ### Escapes -/

section

variable {b : UInt8} {n code : Nat} {letter c : Char} {digits : Bytes}

theorem HexDigit.read (h : HexDigit b n) : hexDigit? b = some n := by
  obtain ⟨hlt, h⟩ := h
  have hread : ∀ n < 16, hexDigit? (byte (Nat.digitChar n)) = some n ∧
      hexDigit? (byte (Nat.digitChar n).toUpper) = some n := by decide
  rcases h with rfl | rfl
  · exact (hread n hlt).1
  · exact (hread n hlt).2

theorem HexCode.read (h : HexCode digits code) (rest : Bytes) : hexCode (digits ++ rest) = .ok code := by
  obtain ⟨hw, hx, hy, hz⟩ := h
  simp only [hexCode, List.cons_append, hw.read, hx.read, hy.read, hz.read]

theorem HexCode.length_eq (h : HexCode digits code) : digits.length = 4 := by
  obtain ⟨-, -, -, -⟩ := h
  rfl

/-- Every escape by a letter is read, and its letter and its character are of seven bits. -/
theorem read_escapes (h : (letter, c) ∈ escapes) :
    letterEscape? (byte letter) = some (byte c) ∧ String.utf8EncodeChar c = [byte c] := by
  have hread : escapes.all fun e => decide (letterEscape? (byte e.1) = some (byte e.2) ∧
      String.utf8EncodeChar e.2 = [byte e.2]) := by decide
  exact of_decide_eq_true (List.all_eq_true.1 hread _ h)

theorem readEscape_letter (h : (letter, c) ∈ escapes) (rest : Bytes) :
    readEscape (byte letter :: rest) = .ok (String.utf8EncodeChar c, 1) := by
  obtain ⟨hletter, hbytes⟩ := read_escapes h
  simp only [readEscape, hletter, hbytes]

/-- The letter of codes is no other escape. -/
theorem readEscape_code {rest bytes : Bytes} {taken : Nat} (h : codeEscape rest = .ok (bytes, taken)) :
    readEscape (byte 'u' :: rest) = .ok (bytes, taken + 1) := by
  have hletter : letterEscape? (byte 'u') = none := by decide
  simp only [readEscape, hletter, if_true, h]
  rfl

theorem codeEscape_code (h : HexCode digits code) (hcode : code < 0xd800 ∨ 0xdfff < code) (rest : Bytes) :
    codeEscape (digits ++ rest) = .ok (String.utf8EncodeChar (Char.ofNat code), 4) := by
  have hlow : isLowSurrogate code = false := by simp only [isLowSurrogate]; grind
  have hhigh : isHighSurrogate code = false := by simp only [isHighSurrogate]; grind
  simp only [codeEscape, h.read, hlow, hhigh, Bool.false_eq_true, if_false, charBytes]

theorem codeEscape_pair {digits' : Bytes} {high low : Nat} (h : HexCode digits (0xd800 + high))
    (hhigh : high < 0x400) (h' : HexCode digits' (0xdc00 + low)) (hlow : low < 0x400) (rest : Bytes) :
    codeEscape (digits ++ (byte '\\' :: byte 'u' :: digits' ++ rest)) =
      .ok (String.utf8EncodeChar (Char.ofNat (0x10000 + high * 0x400 + low)), 10) := by
  have hfirst : isLowSurrogate (0xd800 + high) = false := by simp only [isLowSurrogate]; grind
  have hfirst' : isHighSurrogate (0xd800 + high) = true := by simp only [isHighSurrogate]; grind
  have hsecond : isLowSurrogate (0xdc00 + low) = true := by simp only [isLowSurrogate]; grind
  have hdrop : (digits ++ (byte '\\' :: byte 'u' :: digits' ++ rest)).drop 4 =
      byte '\\' :: byte 'u' :: (digits' ++ rest) := by
    rw [← h.length_eq, List.drop_left]
    rfl
  simp only [codeEscape, h.read, hfirst, hfirst', hdrop, h'.read, hsecond, Bool.false_eq_true, if_false,
    if_true, ne_eq, not_true_eq_false, charBytes, Nat.add_sub_cancel_left]

end

/-! ### Reading -/

section

variable {b : UInt8} {bytes body rest : Bytes} {text : List Char}

/-- A byte that stands for itself. -/
structure Plain (b : UInt8) : Prop where
  ne_quote : b ≠ byte '"'
  ne_backslash : b ≠ byte '\\'
  not_control : 32 ≤ b

theorem readBytes_plain (h : Plain b) (done rest : Bytes) :
    readBytes done (b :: rest) = readBytes (b :: done) rest := by
  rw [readBytes, if_neg h.ne_quote, if_neg h.ne_backslash, if_neg (UInt8.not_lt.2 h.not_control)]

theorem readBytes_plains (h : ∀ b ∈ bytes, Plain b) (done rest : Bytes) :
    readBytes done (bytes ++ rest) = readBytes (bytes.reverse ++ done) rest := by
  induction bytes generalizing done with
  | nil => rfl
  | cons b bytes ih =>
    rw [List.cons_append, readBytes_plain (h b List.mem_cons_self),
      ih fun b' hb' => h b' (List.mem_cons_of_mem b hb')]
    simp

/-- The bytes of a character of more than seven bits are beyond all quotes and escapes. -/
theorem plain_encodeChar {c : Char} (hquote : c ≠ '"') (hbackslash : c ≠ '\\') (hcontrol : 32 ≤ c.toNat) :
    ∀ b ∈ String.utf8EncodeChar c, Plain b := by
  by_cases hascii : c.toNat < 128
  · rw [encodeChar_ascii hascii]
    rintro b hb
    obtain rfl := List.mem_singleton.1 hb
    have hbyte : (byte c).toNat = c.toNat := by
      rw [byte, UInt8.toNat_ofNat']
      omega
    refine ⟨fun h => hquote (Char.toNat_inj.1 ?_), fun h => hbackslash (Char.toNat_inj.1 ?_), ?_⟩
    · rw [← hbyte, h]
      rfl
    · rw [← hbyte, h]
      rfl
    · rw [UInt8.le_iff_toNat_le, hbyte]
      exact hcontrol
  · have hhigh : ∀ b ∈ String.utf8EncodeChar c, 128 ≤ b.toNat := by
      intro b hb
      have hval : ¬ c.val.toNat ≤ 0x7f := fun h => hascii (Nat.lt_succ_of_le h)
      simp only [String.utf8EncodeChar, hval, if_false] at hb
      split at hb
      · simp only [List.mem_cons, List.not_mem_nil, or_false] at hb
        rcases hb with rfl | rfl <;> rw [UInt8.toNat_ofNat'] <;> omega
      · split at hb
        · simp only [List.mem_cons, List.not_mem_nil, or_false] at hb
          rcases hb with rfl | rfl | rfl <;> rw [UInt8.toNat_ofNat'] <;> omega
        · simp only [List.mem_cons, List.not_mem_nil, or_false] at hb
          rcases hb with rfl | rfl | rfl | rfl <;> rw [UInt8.toNat_ofNat'] <;> omega
    intro b hb
    have hb := hhigh b hb
    refine ⟨?_, ?_, ?_⟩
    · rintro rfl
      exact absurd hb (by decide)
    · rintro rfl
      exact absurd hb (by decide)
    · rw [UInt8.le_iff_toNat_le]
      exact Nat.le_trans (by decide) hb

theorem readBytes_escape (escape rest : Bytes)
    (h : readEscape (escape ++ rest) = .ok (bytes, escape.length)) (done : Bytes) :
    readBytes done (byte '\\' :: (escape ++ rest)) = readBytes (bytes.reverse ++ done) rest := by
  rw [readBytes, if_neg (by decide), if_pos rfl, h]
  simp only [List.drop_left]

theorem Spells.readBytes (h : Spells body text) (done rest : Bytes) :
    readBytes done (body ++ byte '"' :: rest) =
      .ok (done.reverse ++ text.flatMap String.utf8EncodeChar, rest) := by
  induction h generalizing done with
  | nil => rw [List.nil_append, Json.readBytes, if_pos rfl, List.flatMap_nil, List.append_nil]
  | plain hquote hbackslash hcontrol _ ih =>
    rw [List.append_assoc, readBytes_plains (plain_encodeChar hquote hbackslash hcontrol), ih]
    simp
  | @letter letter c body text hescape _ ih =>
    refine (readBytes_escape [byte letter] _ (readEscape_letter hescape _) done).trans ((ih _).trans ?_)
    simp
  | @code digits body code text hcode hrange _ ih =>
    have hescape := readEscape_code (codeEscape_code hcode hrange (body ++ byte '"' :: rest))
    rw [← hcode.length_eq] at hescape
    rw [List.append_assoc]
    refine (readBytes_escape (byte 'u' :: digits) _ hescape done).trans ((ih _).trans ?_)
    simp
  | @pair digits digits' body high low text hcode hhigh hcode' hlow _ ih =>
    have hescape := readEscape_code (codeEscape_pair hcode hhigh hcode' hlow (body ++ byte '"' :: rest))
    -- the two codes are one escape
    have hread := readBytes_escape (byte 'u' :: digits ++ (byte '\\' :: byte 'u' :: digits'))
      (body ++ byte '"' :: rest) (by simpa [hcode.length_eq, hcode'.length_eq] using hescape) done
    rw [ih] at hread
    simpa using hread

/-- **A text is read as it is spelled.** -/
theorem Spells.readText (h : Spells body text) (rest : Bytes) :
    readText (body ++ byte '"' :: rest) = .ok (String.ofList text, rest) := by
  rw [Json.readText, h.readBytes, List.reverse_nil, List.nil_append, ← utf8_ofList]
  simp only [utf8?_utf8]

/-- Characters that need no escape spell themselves. -/
theorem spells_plain (h : ∀ c ∈ text, c ≠ '"' ∧ c ≠ '\\' ∧ 32 ≤ c.toNat) :
    Spells (utf8 (String.ofList text)) text := by
  rw [utf8_ofList]
  induction text with
  | nil => exact .nil
  | cons c text ih =>
    obtain ⟨hquote, hbackslash, hcontrol⟩ := h c List.mem_cons_self
    exact .plain hquote hbackslash hcontrol (ih fun d hd => h d (List.mem_cons_of_mem c hd))

/-! ### Passing over -/

theorem skipText_escape (escape : Bytes) (h : skipEscape (escape ++ rest) = .ok escape.length) :
    skipText (byte '\\' :: (escape ++ rest)) = skipText rest := by
  rw [skipText, if_neg (by decide), if_pos rfl, h]
  simp only [List.drop_left]

/-- **A text is passed over up to its quote.** -/
theorem IsText.skipText (h : IsText body) (rest : Bytes) :
    skipText (body ++ byte '"' :: rest) = .ok rest := by
  induction h with
  | nil => rw [List.nil_append, Json.skipText, if_pos rfl]
  | plain hquote hbackslash hcontrol _ ih =>
    rw [List.cons_append, Json.skipText, if_neg hquote, if_neg hbackslash,
      if_neg (UInt8.not_lt.2 hcontrol), ih]
  | @letter letter c body hescape _ ih =>
    refine (skipText_escape [byte letter] ?_).trans ih
    simp [skipEscape, (read_escapes hescape).1]
  | @code digits body code hcode _ ih =>
    rw [List.append_assoc]
    refine (skipText_escape (byte 'u' :: digits) ?_).trans ih
    have hletter : letterEscape? (byte 'u') = none := by decide
    simp [skipEscape, hletter, hcode.read, hcode.length_eq, Except.map]

end

end NoiseFilter.Json
