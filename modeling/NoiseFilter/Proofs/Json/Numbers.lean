import Mathlib.Tactic.SplitIfs
import NoiseFilter.Json.Number
import NoiseFilter.Proofs.Json.Texts

/-!
# Where numbers end

A number is read as far as its bytes go on with it, so two things have to be seen of every number in a document.
One is that what follows does not change it: a number that is read from its own text is read the same with more
of the document behind it, provided that it ends there (`readNumber_append`). The other is that every number of
the grammar is passed over to its end (`IsNumber.skip`).

Beside that, `readNumber_natural` says that a natural number of 64 bits is read from its decimal digits.
-/

namespace NoiseFilter.Json

open Binary

variable {input out rest digits : Bytes} {n : Number}

/-! ### Digits -/

/-- What follows a number: no digit, no point and no mark of an exponent. -/
theorem Ends.stops (h : Ends rest) : rest = [] ∨
    ∃ b after, rest = b :: after ∧ isDigit b = false ∧ b ≠ byte '.' ∧ startsExponent (b :: after) = false := by
  rcases rest with _ | ⟨b, after⟩
  · exact .inl rfl
  · refine .inr ⟨b, after, rfl, ?_⟩
    have hb : (b = byte ' ' ∨ b = byte '\n' ∨ b = byte '\t' ∨ b = byte '\r') ∨
        b = byte ',' ∨ b = byte ']' ∨ b = byte '\x7d' := by
      simpa [isBlank, or_assoc] using h b rfl
    rcases hb with (rfl | rfl | rfl | rfl) | rfl | rfl | rfl <;>
      exact ⟨by decide, by decide, by simp only [startsExponent]; decide⟩

/-- The input does not go on with a digit. -/
def NoDigit (input : Bytes) : Prop := ∀ b ∈ input.head?, isDigit b = false

theorem Ends.noDigit (h : Ends rest) : NoDigit rest := by
  rcases h.stops with rfl | ⟨b, after, rfl, hb, -⟩
  · exact nofun
  · rintro b' ⟨⟩
    exact hb

theorem NoDigit.takeWhile (h : NoDigit rest) (input : Bytes) :
    (input ++ rest).takeWhile isDigit = input.takeWhile isDigit := by
  induction input with
  | nil =>
    cases rest with
    | nil => rfl
    | cons b rest => exact List.takeWhile_cons_of_neg (by simp [h b rfl])
  | cons b input ih => rw [List.cons_append, List.takeWhile_cons, List.takeWhile_cons, ih]

theorem NoDigit.dropWhile (h : NoDigit rest) (input : Bytes) :
    (input ++ rest).dropWhile isDigit = input.dropWhile isDigit ++ rest := by
  induction input with
  | nil =>
    cases rest with
    | nil => rfl
    | cons b rest => exact List.dropWhile_cons_of_neg (by simp [h b rfl])
  | cons b input ih =>
    rw [List.cons_append, List.dropWhile_cons, List.dropWhile_cons, ih]
    split <;> rfl

/-- Digits are passed over as far as they go. -/
theorem Digits.pass (h : Digits digits) (hrest : NoDigit rest) :
    passDigits (digits ++ rest) = (digits.length, rest) := by
  have htake : digits.takeWhile isDigit = digits := List.takeWhile_eq_self_iff.2 h
  have hdrop : digits.dropWhile isDigit = [] := List.dropWhile_eq_nil_iff.2 h
  rw [passDigits, hrest.takeWhile, hrest.dropWhile, htake, hdrop, List.nil_append]

theorem passDigits_append (hrest : NoDigit rest) (input : Bytes) :
    passDigits (input ++ rest) = ((passDigits input).1, (passDigits input).2 ++ rest) := by
  rw [passDigits, hrest.takeWhile, hrest.dropWhile, passDigits]

theorem takeDigits_append (hrest : NoDigit rest) (significand taken : Nat) (input : Bytes) :
    takeDigits significand taken (input ++ rest) =
      ((takeDigits significand taken input).1, (takeDigits significand taken input).2.1,
        (takeDigits significand taken input).2.2 ++ rest) := by
  induction input generalizing significand taken with
  | nil =>
    cases rest with
    | nil => rfl
    | cons b rest => simp [takeDigits, hrest b rfl]
  | cons b input ih =>
    simp only [List.cons_append, takeDigits]
    split
    · exact ih _ _
    · rfl

/-! ### More behind a number

Each of the readers of a number hands the rest of its input on, so what stands behind a number stays there. -/

theorem startsExponent_append (hrest : Ends rest) (input : Bytes) :
    startsExponent (input ++ rest) = startsExponent input := by
  rcases input with _ | ⟨b, input⟩
  · rcases hrest.stops with rfl | ⟨b, after, rfl, -, -, hb⟩
    · rfl
    · exact hb
  · rfl

theorem ofParts_append {negative : Bool} {significand : Nat} {exponent : Int}
    (h : ofParts negative significand exponent input = .ok (n, out)) (rest : Bytes) :
    ofParts negative significand exponent (input ++ rest) = .ok (n, out ++ rest) := by
  rw [ofParts] at h ⊢
  split at h
  · cases h
  · cases h
    rfl

/-- An exponent after its mark and its sign. -/
def readPower (negative : Bool) (significand : Nat) (start : Int) (down : Bool) (input : Bytes) :
    Except Error (Number × Bytes) :=
  match input with
  | [] => .error .endOfValue
  | b :: _ =>
    if isDigit b then
      let size := (input.takeWhile isDigit).foldl appendDigit 0
      let rest := input.dropWhile isDigit
      if exponentLimit < size then
        if significand = 0 ∨ down then ofParts negative 0 0 rest else .error .numberOutOfRange
      else ofParts negative significand (if down then start - size else start + size) rest
    else .error .invalidNumber

theorem readExponent_cons (negative : Bool) (significand : Nat) (start : Int) (mark b : UInt8)
    (input : Bytes) :
    readExponent negative significand start (mark :: b :: input) =
      if b = byte '-' then readPower negative significand start true input
      else if b = byte '+' then readPower negative significand start false input
      else readPower negative significand start false (b :: input) := by
  by_cases hminus : b = byte '-'
  · simp only [readExponent, List.drop_succ_cons, List.drop_zero, if_pos hminus, readPower]
    cases input <;> rfl
  · by_cases hplus : b = byte '+'
    · simp only [readExponent, List.drop_succ_cons, List.drop_zero, if_neg hminus, if_pos hplus,
        readPower]
      cases input <;> rfl
    · simp only [readExponent, List.drop_succ_cons, List.drop_zero, if_neg hminus, if_neg hplus,
        readPower]

section

variable {negative : Bool} {significand : Nat} {exponent : Int}

theorem readPower_append {down : Bool} (hrest : Ends rest)
    (h : readPower negative significand exponent down input = .ok (n, out)) :
    readPower negative significand exponent down (input ++ rest) = .ok (n, out ++ rest) := by
  rcases input with _ | ⟨b, input⟩
  · cases h
  · simp only [readPower] at h
    rw [List.cons_append, readPower]
    simp only
    rw [← List.cons_append, hrest.noDigit.takeWhile, hrest.noDigit.dropWhile]
    split_ifs at h ⊢ <;> exact ofParts_append h rest

theorem readExponent_append (hrest : Ends rest)
    (h : readExponent negative significand exponent input = .ok (n, out)) :
    readExponent negative significand exponent (input ++ rest) = .ok (n, out ++ rest) := by
  rcases input with _ | ⟨mark, _ | ⟨b, input⟩⟩
  · cases h
  · cases h
  · rw [List.cons_append, List.cons_append]
    rw [readExponent_cons] at h ⊢
    split_ifs at h ⊢ <;> exact readPower_append hrest h

theorem finish_append (hrest : Ends rest)
    (h : finish negative significand exponent input = .ok (n, out)) :
    finish negative significand exponent (input ++ rest) = .ok (n, out ++ rest) := by
  rw [finish] at h ⊢
  rw [startsExponent_append hrest]
  split_ifs at h ⊢
  · exact readExponent_append hrest h
  · exact ofParts_append h rest

theorem readFraction_append (hrest : Ends rest)
    (h : readFraction negative significand exponent input = .ok (n, out)) :
    readFraction negative significand exponent (input ++ rest) = .ok (n, out ++ rest) := by
  simp only [readFraction, takeDigits_append hrest.noDigit] at h ⊢
  generalize takeDigits significand 0 input = taken at h ⊢
  obtain ⟨significand, taken, _ | ⟨b, input⟩⟩ := taken
  · simp only at h
    split_ifs at h with htaken
    have h := finish_append hrest h
    rcases hrest.stops with rfl | ⟨b, after, rfl, hb, -⟩
    · simpa only [List.append_nil, if_neg htaken] using h
    · simpa [htaken, hb] using h
  · simp only [List.cons_append] at h ⊢
    split_ifs at h ⊢
    · rw [← List.cons_append, passDigits_append hrest.noDigit]
      exact finish_append hrest h
    · exact finish_append hrest h

theorem readTail_append (hrest : Ends rest) (h : readTail negative significand input = .ok (n, out)) :
    readTail negative significand (input ++ rest) = .ok (n, out ++ rest) := by
  rcases input with _ | ⟨b, input⟩
  · cases h
    rcases hrest.stops with rfl | ⟨b, after, rfl, -, hpoint, hmark⟩
    · rfl
    · simp [readTail, hpoint, hmark]
  · have hmark : startsExponent (b :: (input ++ rest)) = startsExponent (b :: input) := rfl
    simp only [readTail, List.cons_append, hmark] at h ⊢
    split_ifs at h ⊢
    · exact readFraction_append hrest h
    · exact readExponent_append hrest h
    · cases h
      rfl

/-- **What stands behind a number does not change it.** -/
theorem readNumber_append (hrest : Ends rest) (h : readNumber negative input = .ok (n, out)) :
    readNumber negative (input ++ rest) = .ok (n, out ++ rest) := by
  rcases input with _ | ⟨b, input⟩
  · cases h
  · simp only [readNumber, List.cons_append] at h ⊢
    split_ifs at h ⊢
    · rcases input with _ | ⟨d, input⟩
      · have h := readTail_append hrest h
        rcases hrest.stops with rfl | ⟨b, after, rfl, hb, -⟩
        · exact h
        · simpa [hb] using h
      · simp only [List.cons_append] at h ⊢
        split_ifs at h ⊢
        exact readTail_append hrest h
    · rw [← List.cons_append, takeDigits_append hrest.noDigit]
      generalize takeDigits 0 0 (b :: input) = taken at h ⊢
      obtain ⟨significand, taken, _ | ⟨d, left⟩⟩ := taken
      · have h := readTail_append hrest h
        rcases hrest.stops with rfl | ⟨b, after, rfl, hb, -⟩
        · simpa using h
        · simpa [hb] using h
      · simp only [List.cons_append] at h ⊢
        split_ifs at h ⊢
        · rw [← List.cons_append, passDigits_append hrest.noDigit]
          generalize passDigits (d :: left) = passed at h ⊢
          obtain ⟨more, _ | ⟨p, left⟩⟩ := passed
          · have h := finish_append hrest h
            rcases hrest.stops with rfl | ⟨b, after, rfl, -, hpoint, -⟩
            · simpa using h
            · simpa [hpoint] using h
          · simp only [List.cons_append] at h ⊢
            split_ifs at h ⊢
            · exact readFraction_append hrest h
            · exact finish_append hrest h
        · exact readTail_append hrest h

end

/-! ### Natural numbers -/

/-- The decimal digits of a number. -/
def decimal (n : Nat) : Bytes := (Nat.toDigits 10 n).map byte

theorem utf8_toString (n : Nat) : utf8 (toString n) = decimal n := by
  rw [Nat.toString_eq_ofList_toDigits]
  refine utf8_ascii _ fun c hc => ?_
  have hdigit := Char.isDigit_iff_toNat.1 (Nat.isDigit_of_mem_toDigits (by decide) (by decide) hc)
  exact Nat.lt_of_le_of_lt hdigit.2 (by decide)

theorem decimal_of_lt {n : Nat} (h : n < 10) : decimal n = [byte (Nat.digitChar n)] := by
  rw [decimal, Nat.toDigits_of_lt_base h]
  rfl

theorem decimal_of_le {n : Nat} (h : 10 ≤ n) :
    decimal n = decimal (n / 10) ++ [byte (Nat.digitChar (n % 10))] := by
  rw [decimal, Nat.toDigits_of_base_le (by decide) h, List.map_append]
  rfl

/-- **The digits of a number are taken onto it**, as long as it fits 64 bits. -/
theorem takeDigits_decimal {n : Nat} (hn : n < significandLimit) (tail : Bytes) :
    ∃ taken, takeDigits 0 0 (decimal n ++ tail) = takeDigits n taken tail := by
  induction n using Nat.strongRecOn generalizing tail with
  | ind n ih =>
    have hdigit : ∀ d < 10, isDigit (byte (Nat.digitChar d)) = true ∧
        digit (byte (Nat.digitChar d)) = d := by decide
    have hlast : ∀ m taken d, d < 10 → m * 10 + d = n →
        takeDigits m taken (byte (Nat.digitChar d) :: tail) = takeDigits n (taken + 1) tail := by
      rintro m taken d hd rfl
      simp [takeDigits, hdigit d hd, hn]
    rcases Nat.lt_or_ge n 10 with hsmall | hlarge
    · rw [decimal_of_lt hsmall]
      exact ⟨1, hlast 0 0 n hsmall (by omega)⟩
    · obtain ⟨taken, htaken⟩ := ih (n / 10) (by omega) (by omega) (byte (Nat.digitChar (n % 10)) :: tail)
      rw [decimal_of_le hlarge, List.append_assoc]
      exact ⟨taken + 1, htaken.trans (hlast _ taken _ (by omega) (by omega))⟩

/-- The digits of a number begin with one, and with a zero for zero only. -/
theorem decimal_eq_cons (n : Nat) : ∃ b digits, decimal n = b :: digits ∧ isDigit b = true ∧
    (n ≠ 0 → b ≠ byte '0') := by
  induction n using Nat.strongRecOn with
  | ind n ih =>
    rcases Nat.lt_or_ge n 10 with hsmall | hlarge
    · have hdigit : ∀ d < 10, isDigit (byte (Nat.digitChar d)) = true ∧
          (d ≠ 0 → byte (Nat.digitChar d) ≠ byte '0') := by decide
      exact ⟨_, [], decimal_of_lt hsmall, hdigit n hsmall⟩
    · obtain ⟨b, digits, hdigits, hb, hzero⟩ := ih (n / 10) (by omega)
      rw [decimal_of_le hlarge, hdigits]
      exact ⟨b, _, rfl, hb, fun _ => hzero (by omega)⟩

/-- **A natural number of 64 bits is read from its digits.** -/
theorem readNumber_decimal {n : Nat} (hn : n < significandLimit) :
    readNumber false (decimal n) = .ok (.natural n, []) := by
  obtain ⟨b, digits, hdigits, hb, hzero⟩ := decimal_eq_cons n
  rcases Nat.eq_zero_or_pos n with rfl | hpos
  · rfl
  · obtain ⟨taken, htaken⟩ := takeDigits_decimal hn []
    have htaken : takeDigits 0 0 (b :: digits) = (n, taken, []) := by
      rw [← hdigits, ← List.append_nil (decimal n), htaken]
      rfl
    simp only [hdigits, readNumber, if_neg (hzero hpos.ne'), if_pos hb, htaken]
    rfl

/-! ### Numbers passed over -/

/-- What follows the digits before a point, passed over. -/
def skipTail (input : Bytes) : Except Error Bytes :=
  match input with
  | b :: rest =>
    if b = byte '.' then
      let (count, rest) := passDigits rest
      if count = 0 then .error .invalidNumber
      else if startsExponent rest then skipExponent rest
      else .ok rest
    else if startsExponent input then skipExponent input
    else .ok input
  | [] => .ok []

/-- The digits before a point are passed over. -/
theorem IsWhole.skip {whole : Bytes} (h : IsWhole whole) (hrest : NoDigit rest) :
    skipNumber (whole ++ rest) = skipTail rest := by
  rcases h with _ | ⟨hb, hdigits⟩
  · rcases rest with _ | ⟨d, rest⟩
    · rfl
    · simp only [skipNumber, List.cons_append, List.nil_append, if_true, hrest d rfl, Bool.false_eq_true,
        if_false]
      rfl
  · have hmore : Digits _ := fun d hd => hdigits d (List.mem_cons_of_mem _ hd)
    simp only [skipNumber, List.cons_append, if_neg hb, if_pos (hdigits _ List.mem_cons_self),
      hmore.pass hrest]
    rfl

section

variable {fraction exponent : Bytes}

/-- A power of ten begins with its mark, which is no digit and no point. -/
theorem IsExponent.starts (h : IsExponent exponent) (hrest : Ends rest) : exponent ++ rest = [] ∨
    ∃ b after, exponent ++ rest = b :: after ∧ isDigit b = false ∧ b ≠ byte '.' := by
  rcases h with _ | ⟨hmark, -, -⟩
  · rcases hrest.stops with rfl | ⟨b, after, rfl, hb, hpoint, -⟩
    · exact .inl rfl
    · exact .inr ⟨b, after, rfl, hb, hpoint⟩
  · refine .inr ⟨_, _, rfl, ?_⟩
    rcases hmark with rfl | rfl <;> decide

theorem IsExponent.noDigit (h : IsExponent exponent) (hrest : Ends rest) : NoDigit (exponent ++ rest) := by
  rcases h.starts hrest with hnil | ⟨b, after, hcons, hb, -⟩
  · rw [hnil]
    exact nofun
  · rw [hcons]
    rintro b' ⟨⟩
    exact hb

/-- A power of ten is passed over. -/
theorem IsExponent.skip (h : IsExponent exponent) (hrest : Ends rest) :
    (if startsExponent (exponent ++ rest) then skipExponent (exponent ++ rest)
      else .ok (exponent ++ rest)) = .ok rest := by
  rcases h with _ | @⟨mark, sign, b, digits, hmark, hsign, hdigits⟩
  · rw [startsExponent_append hrest []]
    rfl
  · have hstarts : startsExponent (byte mark :: sign ++ b :: digits ++ rest) = true := by
      rcases hmark with rfl | rfl <;> rfl
    have hb : isDigit b = true := hdigits b List.mem_cons_self
    have hpass : passDigits (b :: (digits ++ rest)) = _ := hdigits.pass hrest.noDigit
    rw [if_pos hstarts]
    rcases hsign with rfl | rfl | rfl
    · -- a digit is no sign
      have hplain : (b = byte '-' || b = byte '+') = false := by
        simp only [Bool.or_eq_false_iff, decide_eq_false_iff_not]
        constructor <;> rintro rfl <;> exact absurd hb (by decide)
      simp [skipExponent, hplain, hb, hpass]
    · simp [skipExponent, hb, hpass]
    · simp [skipExponent, hb, hpass]

/-- A fraction and a power of ten are passed over. -/
theorem IsFraction.skip (h : IsFraction fraction) (h' : IsExponent exponent) (hrest : Ends rest) :
    skipTail (fraction ++ (exponent ++ rest)) = .ok rest := by
  have hskip := h'.skip hrest
  rcases h with _ | @⟨b, digits, hdigits⟩
  · rw [List.nil_append]
    rcases h'.starts hrest with hnil | ⟨b, after, hcons, -, hpoint⟩
    · rw [hnil] at hskip ⊢
      exact hskip
    · rw [hcons] at hskip ⊢
      simpa only [skipTail, if_neg hpoint] using hskip
  · have hpass : passDigits (b :: (digits ++ (exponent ++ rest))) = _ := hdigits.pass (h'.noDigit hrest)
    simpa [skipTail, hpass] using hskip

theorem IsFraction.noDigit (h : IsFraction fraction) (h' : IsExponent exponent) (hrest : Ends rest) :
    NoDigit (fraction ++ (exponent ++ rest)) := by
  rcases h with _ | -
  · exact h'.noDigit hrest
  · rintro b ⟨⟩
    decide

/-- **A number without a sign is passed over to its end.** -/
theorem skipNumber_parts {whole : Bytes} (hwhole : IsWhole whole) (hfraction : IsFraction fraction)
    (hexponent : IsExponent exponent) (hrest : Ends rest) :
    skipNumber (whole ++ fraction ++ exponent ++ rest) = .ok rest := by
  rw [List.append_assoc, List.append_assoc, hwhole.skip (hfraction.noDigit hexponent hrest),
    hfraction.skip hexponent hrest]

end

end NoiseFilter.Json
