import NoiseFilter.Json.Writer
import NoiseFilter.Proofs.Json.Texts

/-!
# What is written is an object of the grammar

An object that is written with a line for every member is an object with those members in their order
(`isObject_pretty`): each of them has its line end and its indentation in front, and a blank after its colon.
Keys are plain names, so a key spells itself.
-/

namespace NoiseFilter.Json

namespace Document

variable {members : List (String × Document)}

/-- The indentation of a depth of nesting is blank. -/
theorem blank_newLine (depth : Nat) : Blank (utf8 (newLine depth)) := by
  rw [newLine, utf8_ascii]
  · intro b hb
    rw [List.map_cons, List.map_replicate, List.mem_cons, List.mem_replicate] at hb
    rcases hb with rfl | ⟨-, rfl⟩ <;> decide
  · intro c hc
    rw [List.mem_cons, List.mem_replicate] at hc
    rcases hc with rfl | ⟨-, rfl⟩ <;> decide

/-- Strings with commas between them. -/
theorem utf8_intercalate (texts : List String) : utf8 (",".intercalate texts) = joined (texts.map utf8) := by
  have hcomma : utf8 "," = [byte ','] := utf8_ascii [','] (by simp)
  have htail : ∀ text (texts : List String), utf8 (",".intercalate (text :: texts)) =
      utf8 text ++ (texts.map utf8).flatMap (byte ',' :: ·) := by
    intro text texts
    induction texts generalizing text with
    | nil => simp
    | cons next texts ih => simp [utf8_append, hcomma, ih]
  cases texts with
  | nil => exact utf8_ascii [] nofun
  | cons text texts => exact htail text texts

/-- A member as it is written at some depth. -/
def written (depth : Nat) (m : String × Document) : String × Member :=
  (m.1, ⟨utf8 (newLine depth), utf8 m.1, [], [byte ' '], utf8 (m.2.prettyAt depth), []⟩)

theorem utf8_prettyMembers (depth : Nat) (members : List (String × Document)) :
    (prettyMembers depth members).map utf8 = members.map fun m => (written depth m).2.text := by
  have hquote : utf8 "\"" = [byte '"'] := utf8_ascii ['"'] (by simp)
  have hcolon : utf8 ": " = [byte ':', byte ' '] := utf8_ascii [':', ' '] (by simp)
  induction members with
  | nil => rfl
  | cons m members ih =>
    obtain ⟨key, d⟩ := m
    rw [prettyMembers, List.map_cons, ih]
    simp [written, Member.text, Member.tail, keyText, utf8_append, hquote, hcolon]

/-- A name that needs no escapes. -/
def PlainName (name : String) : Prop := ∀ c ∈ name.toList, c ≠ '"' ∧ c ≠ '\\' ∧ 32 ≤ c.toNat

/-- Whether names need escapes is seen from their characters. -/
theorem plainName_of_all {names : List String}
    (h : names.all fun name => name.toList.all fun c => decide (c ≠ '"' ∧ c ≠ '\\' ∧ 32 ≤ c.toNat)) :
    ∀ name ∈ names, PlainName name := by
  intro name hname c hc
  exact of_decide_eq_true (List.all_eq_true.1 (List.all_eq_true.1 h name hname) c hc)

theorem named_written {m : String × Document} (h : PlainName m.1) (depth : Nat) :
    (written depth m).2.Named (written depth m).1 where
  spaced := ⟨blank_newLine depth, blank_nil, List.forall_mem_singleton.2 (by decide), blank_nil⟩
  key := by
    have hspells := spells_plain h
    rwa [String.ofList_toList] at hspells

/-- **What is written for an object is an object with its members.** -/
theorem isObject_pretty (h : ∀ m ∈ members, PlainName m.1) (hne : members ≠ []) (depth : Nat) :
    IsObject (utf8 ((object members).prettyAt depth)) (members.map (written (depth + 1))) := by
  constructor
  · intro m hm
    obtain ⟨d, hd, rfl⟩ := List.mem_map.1 hm
    exact named_written (h d hd) _
  · have hopen : utf8 "\x7b" = [byte '\x7b'] := utf8_ascii ['\x7b'] (by simp)
    have hclose : utf8 "\x7d" = [byte '\x7d'] := utf8_ascii ['\x7d'] (by simp)
    refine ⟨utf8 (newLine depth), blank_newLine depth, ?_⟩
    rw [prettyAt]
    · simp [objectText, utf8_append, utf8_intercalate, utf8_prettyMembers, hopen, hclose, Function.comp_def]
    · exact hne

end Document

end NoiseFilter.Json
