import NoiseFilter.Json.Skip
import NoiseFilter.Proofs.Json.Numbers

/-!
# Every value is passed over

A value that nobody asks for is passed over in one pass with a stack, and the pass is bounded: twice as many
steps as there are bytes have to do. So the invariant speaks of both (`Skips`): a value takes the pass from the
place before it to the place after it, with the same enclosures open, and in no more steps than twice its
length. Whatever steps there were beyond that are there still.

The induction is on the value. Lists and objects are one case: an item is entered at once and a member after
its key and its colon (`Entry`), and everything else is the same for both (`skip_joined`). The one thing to
watch is the first entry, where the pass has to tell an entry from the byte that ends the enclosure.
-/

namespace NoiseFilter.Json

variable {value body blanks input rest : Bytes} {e : Enclosure}

/-! ### Steps -/

theorem skipSteps_blanks (n : Nat) (outer : List Enclosure) (h : Blank blanks) (input : Bytes) :
    skipSteps n .value outer (blanks ++ input) = skipSteps n .value outer input := by
  cases n with
  | zero => rfl
  | succ n => rw [skipSteps, skipSteps, h.skip]

theorem skipSteps_after_blanks (n : Nat) (comma : Bool) (outer : List Enclosure) (h : Blank blanks)
    (input : Bytes) :
    skipSteps n (.after comma) (e :: outer) (blanks ++ input) = skipSteps n (.after comma) (e :: outer) input := by
  cases n with
  | zero => rfl
  | succ n => rw [skipSteps, skipSteps, h.skip]

/-- The pass from before an entry of an enclosure. -/
def enterSteps (n : Nat) (e : Enclosure) (outer : List Enclosure) (input : Bytes) : Except Error Bytes :=
  match e.enter input with
  | .error err => .error err
  | .ok rest => skipSteps n .value (e :: outer) rest

/-- Blanks before an entry do not matter. -/
theorem enterSteps_skipBlanks (n : Nat) (outer : List Enclosure) (input : Bytes) :
    enterSteps n e outer (skipBlanks input) = enterSteps n e outer input := by
  cases e with
  | list =>
    cases n with
    | zero => rfl
    | succ n => simp only [enterSteps, Enclosure.enter, skipSteps, skipBlanks_skipBlanks]
  | object => simp only [enterSteps, Enclosure.enter, skipBlanks_skipBlanks]

/-- Both enclosures end with a byte that is no blank. -/
theorem isBlank_close (e : Enclosure) : isBlank e.close = false := by
  cases e <;> decide

theorem close_ne_comma (e : Enclosure) : e.close ≠ byte ',' := by
  cases e <;> decide

/-- At the byte that ends it an enclosure is left. -/
theorem skipSteps_close (n : Nat) (comma : Bool) (outer : List Enclosure) (h : Blank blanks) (rest : Bytes) :
    skipSteps (n + 1) (.after comma) (e :: outer) (blanks ++ e.close :: rest) =
      skipSteps n (.after true) outer rest := by
  rw [skipSteps_after_blanks _ _ _ h, skipSteps, skipBlanks_cons (isBlank_close e)]
  simp [close_ne_comma e]

/-- After a comma the next entry begins. -/
theorem skipSteps_comma (n : Nat) (outer : List Enclosure) (input : Bytes) :
    skipSteps (n + 1) (.after true) (e :: outer) (byte ',' :: input) = enterSteps n e outer input := by
  rw [skipSteps, skipBlanks_cons (by decide)]
  rfl

/-- What does not end an enclosure that was just opened is its first entry. -/
theorem skipSteps_open {b : UInt8} {after : Bytes} (n : Nat) (outer : List Enclosure)
    (hinput : skipBlanks input = b :: after) (hb : b ≠ e.close) :
    skipSteps (n + 1) (.after false) (e :: outer) input = enterSteps n e outer input := by
  rw [← enterSteps_skipBlanks, hinput, skipSteps, hinput]
  simp only [Bool.false_and, Bool.false_eq_true, if_false, if_neg hb]
  rfl

/-! ### Lists and objects -/

/-- **A text that is passed over as one value**, in steps that its length bounds. -/
def Skips (value : Bytes) : Prop :=
  ∀ rest, Ends rest → ∃ k, k ≤ 2 * value.length ∧ ∀ n outer,
    skipSteps (n + k) .value outer (value ++ rest) = skipSteps n (.after true) outer rest

/-- **A text that is passed over as one entry of an enclosure.** It does not begin with what ends the
enclosure. -/
structure Entry (e : Enclosure) (text : Bytes) : Prop where
  starts : ∀ rest, ∃ b after, skipBlanks (text ++ rest) = b :: after ∧ b ≠ e.close
  skips : ∀ rest, Ends rest → ∃ k, k ≤ 2 * text.length ∧ ∀ n outer,
    enterSteps (n + k) e outer (text ++ rest) = skipSteps n (.after true) (e :: outer) rest

theorem ends_close (e : Enclosure) (rest : Bytes) : Ends (e.close :: rest) := by
  cases e
  · exact ends_bracket rest
  · exact ends_brace rest

/-- What comes after an entry ends a value. -/
theorem ends_entries (texts : List Bytes) (hblanks : Blank blanks) (rest : Bytes) :
    Ends (texts.flatMap (byte ',' :: ·) ++ (blanks ++ e.close :: rest)) := by
  cases texts with
  | nil =>
    rw [List.flatMap_nil, List.nil_append]
    exact (ends_close e rest).blank hblanks
  | cons text texts => exact ends_comma _

/-- Entries after the first, up to what ends their enclosure. -/
theorem skip_entries {texts : List Bytes} (h : ∀ text ∈ texts, Entry e text) (hblanks : Blank blanks)
    (rest : Bytes) :
    ∃ k, k < 2 * (texts.flatMap (byte ',' :: ·) ++ blanks ++ [e.close]).length ∧ ∀ n outer,
      skipSteps (n + k) (.after true) (e :: outer)
          (texts.flatMap (byte ',' :: ·) ++ (blanks ++ e.close :: rest)) =
        skipSteps n (.after true) outer rest := by
  induction texts with
  | nil =>
    refine ⟨1, ?_, fun n outer => skipSteps_close n true outer hblanks rest⟩
    simp only [List.length_append, List.length_singleton]
    omega
  | cons text texts ih =>
    have hentry := h text List.mem_cons_self
    obtain ⟨k, hk, hsteps⟩ := hentry.skips _ (ends_entries texts hblanks rest)
    obtain ⟨k', hk', hsteps'⟩ := ih fun text' htext' => h text' (List.mem_cons_of_mem text htext')
    refine ⟨k' + k + 1, ?_, fun n outer => ?_⟩
    · simp only [List.flatMap_cons, List.length_append, List.length_cons] at hk' ⊢
      omega
    · rw [List.flatMap_cons, List.append_assoc, List.cons_append, ← Nat.add_assoc, skipSteps_comma,
        ← Nat.add_assoc, hsteps, hsteps']

/-- **The inside of an enclosure that was just opened**, up to what ends it. -/
theorem skip_joined {texts : List Bytes} (h : ∀ text ∈ texts, Entry e text) (hblanks : Blank blanks)
    (rest : Bytes) :
    ∃ k, k ≤ 2 * (joined texts ++ blanks ++ [e.close]).length ∧ ∀ n outer,
      skipSteps (n + k) (.after false) (e :: outer) (joined texts ++ (blanks ++ e.close :: rest)) =
        skipSteps n (.after true) outer rest := by
  cases texts with
  | nil =>
    refine ⟨1, ?_, fun n outer => skipSteps_close n false outer hblanks rest⟩
    simp only [List.length_append, List.length_singleton]
    omega
  | cons text texts =>
    have hentry := h text List.mem_cons_self
    obtain ⟨b, after, hinput, hb⟩ := hentry.starts (texts.flatMap (byte ',' :: ·) ++ (blanks ++ e.close :: rest))
    obtain ⟨k, hk, hsteps⟩ := hentry.skips _ (ends_entries texts hblanks rest)
    obtain ⟨k', hk', hsteps'⟩ :=
      skip_entries (fun text' htext' => h text' (List.mem_cons_of_mem text htext')) hblanks rest
    refine ⟨k' + k + 1, ?_, fun n outer => ?_⟩
    · simp only [joined, List.length_append, List.length_cons] at hk' ⊢
      omega
    · rw [joined, List.append_assoc, ← Nat.add_assoc, skipSteps_open _ _ hinput hb, ← Nat.add_assoc, hsteps,
        hsteps']

/-- The byte that opens an enclosure. -/
def Enclosure.open_ : Enclosure → UInt8
  | list => byte '['
  | object => byte '\x7b'

/-- **An enclosure is passed over with all its entries.** -/
theorem skips_enclosure {texts : List Bytes} (h : ∀ text ∈ texts, Entry e text) (hblanks : Blank blanks) :
    Skips (e.open_ :: joined texts ++ blanks ++ [e.close]) := by
  intro rest hrest
  obtain ⟨k, hk, hsteps⟩ := skip_joined h hblanks rest
  have hopen : ∀ (n : Nat) (outer : List Enclosure) (input : Bytes),
      skipSteps (n + 1) .value outer (e.open_ :: input) = skipSteps n (.after false) (e :: outer) input := by
    intro n outer input
    cases e <;> (rw [skipSteps, skipBlanks_cons (by decide)]; rfl)
  refine ⟨k + 1, ?_, fun n outer => ?_⟩
  · simp only [List.length_append, List.length_cons] at hk ⊢
    omega
  · rw [← hsteps n outer, ← Nat.add_assoc]
    refine Eq.trans ?_ (hopen _ _ _)
    simp

/-! ### Entries -/

/-- What a value begins with: no blank, and nothing that ends a list. -/
def Starts (value : Bytes) : Prop :=
  ∃ b after, value = b :: after ∧ isBlank b = false ∧ b ≠ byte ']'

theorem Item.entry {i : Item} (h : i.Spaced) (hstarts : Starts i.value) (hskips : Skips i.value) :
    Entry .list i.text := by
  constructor
  · intro rest
    obtain ⟨b, after, hvalue, hblank, hb⟩ := hstarts
    refine ⟨b, after ++ i.after ++ rest, ?_, hb⟩
    rw [Item.text, List.append_assoc, List.append_assoc, h.before.skip, hvalue, List.cons_append,
      skipBlanks_cons hblank, List.append_assoc]
  · intro rest hrest
    obtain ⟨k, hk, hsteps⟩ := hskips _ (hrest.blank h.after)
    refine ⟨k, ?_, fun n outer => ?_⟩
    · simp only [Item.text, List.length_append]
      omega
    · rw [Item.text, List.append_assoc, List.append_assoc]
      exact (skipSteps_blanks _ _ h.before _).trans ((hsteps _ _).trans (skipSteps_after_blanks _ _ _ h.after _))

theorem Blank.colon (h : Blank blanks) (input : Bytes) :
    colon (blanks ++ byte ':' :: input) = .ok input := by
  rw [Json.colon, h.skip, skipBlanks_cons (by decide)]
  exact if_pos rfl

theorem Member.entry {m : Member} (h : m.Spaced) (hkey : IsText m.key) (hskips : Skips m.value) :
    Entry .object m.text := by
  constructor
  · intro rest
    refine ⟨byte '"', m.tail ++ rest, ?_, by decide⟩
    rw [Member.text, List.append_assoc, h.before.skip]
    exact skipBlanks_cons (by decide) _
  · intro rest hrest
    obtain ⟨k, hk, hsteps⟩ := hskips _ (hrest.blank h.after)
    have henter : Enclosure.enter .object (m.text ++ rest) =
        .ok (m.afterColon ++ (m.value ++ (m.after ++ rest))) := by
      have htext : m.text ++ rest = m.before ++ byte '"' :: (m.key ++ byte '"' ::
          (m.afterKey ++ byte ':' :: (m.afterColon ++ (m.value ++ (m.after ++ rest))))) := by
        simp [Member.text, Member.tail]
      rw [htext, Enclosure.enter]
      simp only [h.before.skip, skipBlanks_cons (by decide : isBlank (byte '"') = false), if_true,
        hkey.skipText, h.afterKey.colon]
    refine ⟨k, ?_, fun n outer => ?_⟩
    · simp only [Member.text, Member.tail, List.length_append, List.length_cons]
      omega
    · rw [enterSteps, henter]
      exact (skipSteps_blanks _ _ h.afterColon _).trans
        ((hsteps _ _).trans (skipSteps_after_blanks _ _ _ h.after _))

/-! ### Values -/

/-- A value without entries is passed over in one step. -/
theorem skips_scalar {b : UInt8} {after : Bytes} (hblank : isBlank b = false)
    (h : ∀ rest, Ends rest → skipStart b (after ++ rest) = .ok (none, rest)) : Skips (b :: after) := by
  intro rest hrest
  refine ⟨1, ?_, fun n outer => ?_⟩
  · rw [List.length_cons]
    omega
  · rw [List.cons_append, skipSteps, skipBlanks_cons hblank]
    simp only [h rest hrest]

/-- A value that is a text is passed over as one. -/
theorem IsText.skips (h : IsText body) : Skips (byte '"' :: body ++ [byte '"']) := by
  refine skips_scalar (by decide) fun rest _ => ?_
  have hskip := h.skipText rest
  rw [← List.singleton_append, ← List.append_assoc] at hskip
  exact congrArg (Except.map _) hskip

theorem utf8_null : utf8 "null" = [byte 'n', byte 'u', byte 'l', byte 'l'] :=
  utf8_ascii ['n', 'u', 'l', 'l'] (by simp)

theorem utf8_true : utf8 (toString true) = [byte 't', byte 'r', byte 'u', byte 'e'] :=
  utf8_ascii ['t', 'r', 'u', 'e'] (by simp)

theorem utf8_false : utf8 (toString false) = [byte 'f', byte 'a', byte 'l', byte 's', byte 'e'] :=
  utf8_ascii ['f', 'a', 'l', 's', 'e'] (by simp)

theorem skips_null : Skips (utf8 "null") := by
  rw [utf8_null]
  exact skips_scalar (by decide) fun rest _ => rfl

theorem skips_boolean (b : Bool) : Skips (utf8 (toString b)) := by
  cases b with
  | false =>
    rw [utf8_false]
    exact skips_scalar (by decide) fun rest _ => rfl
  | true =>
    rw [utf8_true]
    exact skips_scalar (by decide) fun rest _ => rfl

/-- A digit is none of the other bytes that a value may begin with. -/
theorem ne_byte_of_isDigit {b : UInt8} (h : isDigit b = true) {c : Char} (hc : isDigit (byte c) = false) :
    b ≠ byte c := by
  rintro rfl
  rw [h] at hc
  cases hc

theorem isBlank_of_isDigit {b : UInt8} (h : isDigit b = true) : isBlank b = false := by
  have hne := fun c hc => beq_false_of_ne (ne_byte_of_isDigit h (c := c) hc)
  simp only [isBlank, hne ' ' (by decide), hne '\n' (by decide), hne '\t' (by decide),
    hne '\r' (by decide), Bool.or_self]

theorem skipStart_digit {b : UInt8} (h : isDigit b = true) (input : Bytes) :
    skipStart b input = (skipNumber (b :: input)).map fun rest => (none, rest) := by
  have hne := fun c hc => ne_byte_of_isDigit h (c := c) hc
  simp only [skipStart, if_neg (hne 'n' (by decide)), if_neg (hne 't' (by decide)),
    if_neg (hne 'f' (by decide)), if_neg (hne '-' (by decide)), if_pos h]

/-- The digits before a point begin with a digit. -/
theorem IsWhole.eq_cons {whole : Bytes} (h : IsWhole whole) :
    ∃ b digits, whole = b :: digits ∧ isDigit b = true := by
  rcases h with _ | ⟨-, hdigits⟩
  · exact ⟨_, _, rfl, by decide⟩
  · exact ⟨_, _, rfl, hdigits _ List.mem_cons_self⟩

theorem IsNumber.skips (h : IsNumber value) : Skips value := by
  obtain ⟨hsign, hwhole, hfraction, hexponent⟩ := h
  obtain ⟨b, digits, rfl, hb⟩ := hwhole.eq_cons
  have hskip := fun rest (hrest : Ends rest) => skipNumber_parts hwhole hfraction hexponent hrest
  rcases hsign with rfl | rfl
  · refine skips_scalar (isBlank_of_isDigit hb) fun rest hrest => ?_
    rw [skipStart_digit hb]
    exact congrArg (Except.map _) (hskip rest hrest)
  · exact skips_scalar (by decide) fun rest hrest => congrArg (Except.map _) (hskip rest hrest)

theorem IsNumber.starts (h : IsNumber value) : Starts value := by
  obtain ⟨hsign, hwhole, -, -⟩ := h
  obtain ⟨b, digits, rfl, hb⟩ := hwhole.eq_cons
  rcases hsign with rfl | rfl
  · exact ⟨b, _, rfl, isBlank_of_isDigit hb, ne_byte_of_isDigit hb (by decide)⟩
  · exact ⟨_, _, rfl, by decide, by decide⟩

theorem IsValue.starts (h : IsValue value) : Starts value := by
  cases h with
  | null => exact ⟨_, _, utf8_null, by decide, by decide⟩
  | boolean b =>
    cases b
    · exact ⟨_, _, utf8_false, by decide, by decide⟩
    · exact ⟨_, _, utf8_true, by decide, by decide⟩
  | number hnumber => exact hnumber.starts
  | text => exact ⟨_, _, rfl, by decide, by decide⟩
  | list => exact ⟨_, _, rfl, by decide, by decide⟩
  | object => exact ⟨_, _, rfl, by decide, by decide⟩

/-- **Every value is passed over to its end.** -/
theorem IsValue.skips (h : IsValue value) : Skips value := by
  induction h with
  | null => exact skips_null
  | boolean b => exact skips_boolean b
  | number hnumber => exact hnumber.skips
  | text hbody => exact hbody.skips
  | list hspaced hblanks hvalues ih =>
    refine skips_enclosure (e := .list) ?_ hblanks
    intro text htext
    obtain ⟨i, hi, rfl⟩ := List.mem_map.1 htext
    exact Item.entry (hspaced i hi) (hvalues i hi).starts (ih i hi)
  | object hspaced hkeys hblanks hvalues ih =>
    refine skips_enclosure (e := .object) ?_ hblanks
    intro text htext
    obtain ⟨m, hm, rfl⟩ := List.mem_map.1 htext
    exact Member.entry (hspaced m hm) (hkeys m hm) (ih m hm)

/-- **A value is passed over alone**, within the bytes there are. -/
theorem IsValue.skipValue (h : IsValue value) (hblanks : Blank blanks) (hrest : Ends rest) {bound : Nat}
    (hbound : (blanks ++ value ++ rest).length ≤ bound) :
    skipValue bound (blanks ++ value ++ rest) = .ok rest := by
  obtain ⟨k, hk, hsteps⟩ := h.skips rest hrest
  have hle : k + 1 ≤ 2 * bound + 2 := by
    simp only [List.length_append] at hbound
    omega
  obtain ⟨n, hn⟩ := Nat.exists_eq_add_of_le hle
  rw [Json.skipValue, List.append_assoc, skipSteps_blanks _ _ hblanks, hn,
    (by omega : k + 1 + n = n + 1 + k), hsteps]
  rfl

end NoiseFilter.Json
