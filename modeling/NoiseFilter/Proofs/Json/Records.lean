import NoiseFilter.Json.Record
import NoiseFilter.Proofs.Json.Skipping

/-!
# Records are read from their members

A reader reads a value (`Reads`) if it gets it from its text wherever that stands in a document: with blanks in
front, and with whatever ends a value behind. It may stop before blanks that come behind, since whoever goes on
skips them.

* Booleans and natural numbers are read from the texts that are written for them, and a number of 32 bits from
  any text that reads as it alone (`reads_single`).
* A record is read from an object with its members in any order, fields left out, and keys that are no fields
  (`reads_record`). What is read is the record at the start with the effects of the members in their order.

The induction is on the members. It is stated for the members so far and whatever comes behind them
(`readMembers_prefix`), so that it serves for an object to its end and for one with a member that is refused
(`refuses_record`) alike.
-/

namespace NoiseFilter.Json

open Binary

variable {α β : Type} {r : Reader α} {value blanks input rest : Bytes} {a : α}

/-- **A value is read from its text**, anywhere in a document. -/
def Reads (r : Reader α) (value : Bytes) (a : α) : Prop :=
  ∀ blanks rest, Blank blanks → Ends rest →
    ∃ left, r (blanks ++ value ++ rest) = .ok (a, left) ∧ skipBlanks left = skipBlanks rest

/-- A text is refused, anywhere in a document. -/
def Refuses (r : Reader α) (value : Bytes) : Prop :=
  ∀ blanks rest, Blank blanks → Ends rest → ∃ e, r (blanks ++ value ++ rest) = .error e

theorem Reads.map (h : Reads r value a) (f : α → β) : Reads (r.map f) value (f a) := by
  intro blanks rest hblanks hrest
  obtain ⟨left, hread, hleft⟩ := h blanks rest hblanks hrest
  exact ⟨left, by rw [Reader.map, hread], hleft⟩

theorem Refuses.map (h : Refuses r value) (f : α → β) : Refuses (r.map f) value := by
  intro blanks rest hblanks hrest
  obtain ⟨e, hread⟩ := h blanks rest hblanks hrest
  exact ⟨e, by rw [Reader.map, hread]⟩

/-- A document is read if nothing but blanks is left of it. -/
theorem readAll_eq_ok : readAll r input = .ok a ↔ ∃ left, r input = .ok (a, left) ∧ skipBlanks left = [] := by
  rw [readAll]
  constructor
  · intro h
    split at h
    · cases h
    · rename_i a' left hread
      split at h
      · rename_i hempty
        cases h
        exact ⟨left, hread, List.isEmpty_iff.1 hempty⟩
      · cases h
  · rintro ⟨left, hread, hleft⟩
    simp only [hread, hleft, List.isEmpty_nil, if_true]

/-- **A value that is read is read as a document**, with blanks around it. -/
theorem Reads.readAll {blanks' : Bytes} (h : Reads r value a) (hblanks : Blank blanks)
    (hblanks' : Blank blanks') : readAll r (blanks ++ value ++ blanks') = .ok a := by
  have hends : Ends blanks' := by simpa using ends_nil.blank hblanks'
  obtain ⟨left, hread, hleft⟩ := h blanks blanks' hblanks hends
  have hnil : skipBlanks blanks' = [] := List.dropWhile_eq_nil_iff.2 hblanks'
  exact readAll_eq_ok.2 ⟨left, hread, hleft.trans hnil⟩

theorem Refuses.readAll {blanks' : Bytes} (h : Refuses r value) (hblanks : Blank blanks)
    (hblanks' : Blank blanks') : ∃ e, Json.readAll r (blanks ++ value ++ blanks') = .error e := by
  have hends : Ends blanks' := by simpa using ends_nil.blank hblanks'
  obtain ⟨e, hread⟩ := h blanks blanks' hblanks hends
  exact ⟨e, by rw [Json.readAll, hread]⟩

/-! ### Simple values -/

theorem reads_boolean (b : Bool) : Reads readBool (utf8 (toString b)) b := by
  intro blanks rest hblanks hrest
  refine ⟨rest, ?_, rfl⟩
  rw [readBool, List.append_assoc, hblanks.skip]
  cases b with
  | false =>
    rw [utf8_false, List.cons_append, skipBlanks_cons (by decide)]
    rfl
  | true =>
    rw [utf8_true, List.cons_append, skipBlanks_cons (by decide)]
    rfl

section

variable {expected : String} {use : Number → Except Error α} {b : UInt8} {after left unsigned : Bytes}
  {negative : Bool} {n : Number}

/-- A number is read behind blanks, and used. -/
theorem readNumberAs_of (hblanks : Blank blanks) (hinput : skipBlanks input = b :: after)
    (hstart : number? (b :: after) = some (negative, unsigned))
    (hread : readNumber negative unsigned = .ok (n, left)) :
    readNumberAs expected use (blanks ++ input) = (use n).map fun a => (a, left) := by
  simp only [readNumberAs, hblanks.skip, hinput, List.isEmpty_cons, Bool.false_eq_true, if_false, hstart,
    hread]

/-- Only a number is used as one. -/
theorem of_readNumberAs (h : readNumberAs expected use input = .ok (a, left)) :
    ∃ b after negative unsigned n, skipBlanks input = b :: after ∧
      number? (b :: after) = some (negative, unsigned) ∧ readNumber negative unsigned = .ok (n, left) ∧
        use n = .ok a := by
  cases hinput : skipBlanks input with
  | nil => simp [readNumberAs, hinput] at h
  | cons b after =>
    cases hstart : number? (b :: after) with
    | none => simp [readNumberAs, hinput, hstart] at h
    | some found =>
      obtain ⟨negative, unsigned⟩ := found
      cases hread : readNumber negative unsigned with
      | error e => simp [readNumberAs, hinput, hstart, hread] at h
      | ok found =>
        obtain ⟨n, left'⟩ := found
        cases huse : use n with
        | error e => simp [readNumberAs, hinput, hstart, hread, huse, Except.map] at h
        | ok a' =>
          obtain ⟨rfl, rfl⟩ : a' = a ∧ left' = left := by
            simpa [readNumberAs, hinput, hstart, hread, huse, Except.map] using h
          exact ⟨b, after, negative, unsigned, n, rfl, hstart, hread, huse⟩

theorem number?_append (h : number? (b :: after) = some (negative, unsigned)) (rest : Bytes) :
    number? (b :: (after ++ rest)) = some (negative, unsigned ++ rest) := by
  simp only [number?] at h ⊢
  split_ifs at h ⊢ <;> cases h <;> rfl

end

/-- **A natural number is read from its digits**, if it is below the limit. -/
theorem reads_natural {n limit : Nat} (expected : String) (hn : n < limit) (hlimit : limit ≤ significandLimit) :
    Reads (readNatural expected limit) (decimal n) n := by
  intro blanks rest hblanks hrest
  obtain ⟨b, digits, hdigits, hb, -⟩ := decimal_eq_cons n
  have hread := readNumber_append hrest (readNumber_decimal (Nat.lt_of_lt_of_le hn hlimit))
  have hskip : skipBlanks (decimal n ++ rest) = b :: (digits ++ rest) := by
    rw [hdigits]
    exact skipBlanks_cons (isBlank_of_isDigit hb) _
  have hstart : number? (b :: (digits ++ rest)) = some (false, decimal n ++ rest) := by
    rw [number?, if_neg (ne_byte_of_isDigit hb (by decide)), if_pos hb, hdigits]
    rfl
  refine ⟨rest, ?_, rfl⟩
  rw [readNatural, List.append_assoc, readNumberAs_of hblanks hskip hstart hread]
  simp [hn, Except.map]

/-- **A number of 32 bits is read from every text that alone reads as it.** -/
theorem reads_single {x : Single} (h : readAll readSingle value = .ok x) : Reads readSingle value x := by
  obtain ⟨left, hsingle, hleft⟩ := readAll_eq_ok.1 h
  obtain ⟨b, after, negative, unsigned, n, hvalue, hstart, hread, huse⟩ := of_readNumberAs hsingle
  intro blanks rest hblanks hrest
  have hblank : Blank left := List.dropWhile_eq_nil_iff.1 hleft
  refine ⟨left ++ rest, ?_, hblank.skip rest⟩
  rw [readSingle, List.append_assoc, readNumberAs_of hblanks (skipBlanks_append hvalue rest)
    (number?_append hstart rest) (readNumber_append hrest hread), huse]
  rfl

/-- No number is read from null. -/
theorem refuses_null : Refuses readSingle (utf8 "null") := by
  intro blanks rest hblanks hrest
  rw [readSingle, readNumberAs, List.append_assoc, hblanks.skip, utf8_null, List.cons_append,
    skipBlanks_cons (by decide)]
  exact ⟨_, rfl⟩

/-! ### Keys -/

/-- Some members, each after a comma, but for the very first. -/
def membersText : Bool → List (String × Member) → Bytes
  | _, [] => []
  | first, m :: members => (if first then [] else [byte ',']) ++ m.2.text ++ membersText false members

theorem membersText_append (first : Bool) (members more : List (String × Member)) :
    membersText first (members ++ more) =
      membersText first members ++ membersText (first && members.isEmpty) more := by
  induction members generalizing first with
  | nil => simp [membersText]
  | cons m members ih => simp [membersText, ih]

theorem flatMap_members (members : List (String × Member)) :
    ((members.map Prod.snd).map Member.text).flatMap (byte ',' :: ·) = membersText false members := by
  induction members with
  | nil => rfl
  | cons m members ih =>
    rw [List.map_cons, List.map_cons, List.flatMap_cons, ih]
    rfl

theorem joined_members (members : List (String × Member)) :
    joined ((members.map Prod.snd).map Member.text) = membersText true members := by
  cases members with
  | nil => rfl
  | cons m members =>
    rw [List.map_cons, List.map_cons, joined, flatMap_members]
    rfl

/-- What comes after a member ends its value. -/
theorem ends_members (members : List (String × Member)) (hrest : Ends rest) :
    Ends (membersText false members ++ rest) := by
  cases members with
  | nil => exact hrest
  | cons m members => exact ends_comma _

/-- At a member its key comes next. -/
theorem nextKey_member {m : Member} (first : Bool) (h : m.Spaced) (rest : Bytes) :
    nextKey first ((if first then [] else [byte ',']) ++ m.text ++ rest) = .ok (.inl (m.tail ++ rest)) := by
  have hquote : skipBlanks (m.text ++ rest) = byte '"' :: (m.tail ++ rest) := by
    rw [Member.text, List.append_assoc, h.before.skip]
    exact skipBlanks_cons (by decide) _
  cases first with
  | true =>
    rw [nextKey, if_pos rfl, List.nil_append, hquote]
    rfl
  | false =>
    have hcomma : skipBlanks (byte ',' :: (m.text ++ rest)) = _ := skipBlanks_cons (by decide) _
    rw [nextKey, if_neg Bool.false_ne_true, List.append_assoc, List.singleton_append, hcomma]
    simp only [hquote]
    rfl

theorem nextKey_brace (first : Bool) (hblanks : Blank blanks) (rest : Bytes) :
    nextKey first (blanks ++ byte '\x7d' :: rest) = .ok (.inr rest) := by
  rw [nextKey, hblanks.skip, skipBlanks_cons (by decide)]
  exact if_pos rfl

/-! ### Members -/

section

variable {record : Type} {fields : List (RecordField record)} {name : String} {m : Member}

/-- **What a member does to a record**: one of a field has the effect that is read from its value, and one under
another name has none. -/
inductive Takes (fields : List (RecordField record)) (name : String) (value : Bytes) :
    (record → record) → Prop
  | field {field : RecordField record} {effect : record → record} :
      fields.find? (fun field => field.name == name) = some field → Reads field.read value effect →
        Takes fields name value effect
  | extra : fields.find? (fun field => field.name == name) = none → IsValue value → Takes fields name value id

/-- **A member is read**, unless it is of a field that was read before. -/
theorem readMember_of {effect : record → record} {bound : Nat} {seen : List String} (hm : m.Named name)
    (h : Takes fields name m.value effect) (hseen : name ∈ fields.map RecordField.name → name ∉ seen)
    (hrest : Ends rest) (hbound : (m.tail ++ rest).length ≤ bound) (r : record) :
    ∃ seen' left, readMember fields bound seen r (m.tail ++ rest) = .ok ((effect r, seen'), left) ∧
      skipBlanks left = skipBlanks rest ∧ ∀ other ∈ seen', other = name ∨ other ∈ seen := by
  have htail : m.tail ++ rest = m.key ++ byte '"' :: (m.afterKey ++ byte ':' ::
      (m.afterColon ++ m.value ++ (m.after ++ rest))) := by simp [Member.tail]
  have hends := hrest.blank hm.spaced.after
  rw [htail] at hbound ⊢
  rw [readMember, hm.key.readText, String.ofList_toList]
  cases h with
  | @field field effect hfind hreads =>
    obtain ⟨left, hread, hleft⟩ := hreads m.afterColon (m.after ++ rest) hm.spaced.afterColon hends
    have hname : field.name = name := by simpa using List.find?_some hfind
    have hnew : seen.contains name = false := by
      simpa using hseen (hname ▸ List.mem_map_of_mem (List.mem_of_find?_eq_some hfind))
    refine ⟨name :: seen, left, ?_, hleft.trans (hm.spaced.after.skip rest), by simp⟩
    simp only [hfind, hname, hnew, Bool.false_eq_true, if_false, hm.spaced.afterKey.colon, hread]
  | extra hfind hvalue =>
    refine ⟨seen, m.after ++ rest, ?_, hm.spaced.after.skip rest, fun other => .inr⟩
    have hlength : (m.afterColon ++ m.value ++ (m.after ++ rest)).length ≤ bound := by
      simp only [List.length_append, List.length_cons] at hbound ⊢
      omega
    simp only [hfind, hm.spaced.afterKey.colon, hvalue.skipValue hm.spaced.afterColon hends hlength]
    rfl

/-- A member of a field whose value is refused is refused. -/
theorem readMember_refused {field : RecordField record} (bound : Nat) (seen : List String)
    (hm : m.Named name) (hfind : fields.find? (fun field => field.name == name) = some field)
    (h : Refuses field.read m.value) (hrest : Ends rest) (r : record) :
    ∃ e, readMember fields bound seen r (m.tail ++ rest) = .error e := by
  have htail : m.tail ++ rest = m.key ++ byte '"' :: (m.afterKey ++ byte ':' ::
      (m.afterColon ++ m.value ++ (m.after ++ rest))) := by simp [Member.tail]
  obtain ⟨e, hread⟩ := h m.afterColon (m.after ++ rest) hm.spaced.afterColon (hrest.blank hm.spaced.after)
  rw [htail, readMember, hm.key.readText, String.ofList_toList]
  simp only [hfind, hm.spaced.afterKey.colon, hread]
  split
  · exact ⟨_, rfl⟩
  · exact ⟨_, rfl⟩

/-- Blanks before a member do not matter. -/
theorem readMembers_congr {steps : Nat} {first : Bool} {seen : List String} {r : record} {left : Bytes}
    (h : skipBlanks left = skipBlanks input) :
    readMembers fields steps first seen r left = readMembers fields steps first seen r input := by
  cases steps with
  | zero => rfl
  | succ steps => rw [readMembers, readMembers, nextKey, nextKey, h]

/-- The names of fields come once at most, counted from the names that were seen. -/
structure Fresh (fields : List (RecordField record)) (seen : List String)
    (members : List (String × Member)) : Prop where
  once : OnceEach (fields.map RecordField.name) members
  unseen : ∀ m ∈ members, m.1 ∈ fields.map RecordField.name → m.1 ∉ seen

/-- **Some members, and whatever comes behind them**: their effects are had in their order, and steps enough
for what comes behind are left. -/
theorem readMembers_prefix {effect : String → record → record} {members : List (String × Member)}
    (hnamed : ∀ m ∈ members, m.2.Named m.1) (htakes : ∀ m ∈ members, Takes fields m.1 m.2.value (effect m.1))
    {tail : Bytes} (htail : members ≠ [] → Ends tail) {steps : Nat} {first : Bool} {seen : List String}
    (hfresh : Fresh fields seen members) (hsteps : (membersText first members ++ tail).length < steps)
    (r : record) :
    ∃ steps' seen', tail.length < steps' ∧
      readMembers fields steps first seen r (membersText first members ++ tail) =
        readMembers fields steps' (first && members.isEmpty) seen'
          (members.foldl (fun r m => effect m.1 r) r) tail := by
  induction members generalizing steps first seen r with
  | nil => exact ⟨steps, seen, hsteps, by simp [membersText]⟩
  | cons m members ih =>
    obtain ⟨steps, rfl⟩ : ∃ n, steps = n + 1 := ⟨steps - 1, by omega⟩
    have hm := hnamed m List.mem_cons_self
    have htail := htail (List.cons_ne_nil m members)
    have htext : membersText first (m :: members) ++ tail =
        (if first then [] else [byte ',']) ++ m.2.text ++ (membersText false members ++ tail) := by
      rw [membersText, List.append_assoc]
    have hlength : (m.2.tail ++ (membersText false members ++ tail)).length < steps := by
      rw [htext] at hsteps
      simp only [Member.text, List.length_append, List.length_cons] at hsteps ⊢
      omega
    obtain ⟨seen', left, hread, hleft, hseen⟩ := readMember_of hm (htakes m List.mem_cons_self)
      (hfresh.unseen m List.mem_cons_self) (ends_members members htail) hlength.le r
    have hfresh' : Fresh fields seen' members := by
      refine ⟨(List.pairwise_cons.1 hfresh.once).2, fun m' hm' hknown hmem => ?_⟩
      rcases hseen _ hmem with hsame | hbefore
      · exact (List.pairwise_cons.1 hfresh.once).1 m' hm' (hsame ▸ hknown) hsame.symm
      · exact hfresh.unseen m' (List.mem_cons_of_mem m hm') hknown hbefore
    have hlength' : (membersText false members ++ tail).length < steps := by
      rw [List.length_append] at hlength
      omega
    obtain ⟨steps', seen'', hsteps', hrun⟩ := ih (fun m' hm' => hnamed m' (List.mem_cons_of_mem m hm'))
      (fun m' hm' => htakes m' (List.mem_cons_of_mem m hm')) (fun _ => htail) hfresh' hlength' (effect m.1 r)
    refine ⟨steps', seen'', hsteps', ?_⟩
    rw [htext, readMembers, nextKey_member first hm.spaced]
    simp only [hread]
    rw [readMembers_congr hleft, hrun, List.foldl_cons, Bool.false_and, List.isEmpty_cons, Bool.and_false]

/-! ### Objects -/

variable {expected : String} {start : record} {text : Bytes} {members : List (String × Member)}

/-- A record that begins with a brace is read member by member. -/
theorem readRecord_brace (hblanks : Blank blanks) (input : Bytes) :
    readRecord expected fields start (blanks ++ byte '\x7b' :: input) =
      readMembers fields (input.length + 1) true [] start input := by
  rw [readRecord, hblanks.skip, skipBlanks_cons (by decide)]
  rfl

theorem objectText_members (members : List (String × Member)) (inner rest : Bytes) :
    objectText (members.map Prod.snd) inner ++ rest =
      byte '\x7b' :: (membersText true members ++ (inner ++ byte '\x7d' :: rest)) := by
  rw [objectText, joined_members]
  simp

/-- **A record is read from its members**: it is the record at the start with their effects. -/
theorem reads_record {effect : String → record → record} (h : IsObject text members)
    (htakes : ∀ m ∈ members, Takes fields m.1 m.2.value (effect m.1))
    (honce : OnceEach (fields.map RecordField.name) members) :
    Reads (readRecord expected fields start) text (members.foldl (fun r m => effect m.1 r) start) := by
  obtain ⟨hnamed, inner, hinner, rfl⟩ := h
  intro blanks rest hblanks hrest
  obtain ⟨steps, seen, hsteps, hrun⟩ := readMembers_prefix hnamed htakes
    (fun _ => (ends_brace rest).blank hinner) ⟨honce, fun _ _ _ => List.not_mem_nil⟩ (Nat.lt_succ_self _) start
  obtain ⟨steps, rfl⟩ : ∃ n, steps = n + 1 := ⟨steps - 1, by omega⟩
  refine ⟨rest, ?_, rfl⟩
  rw [List.append_assoc, objectText_members, readRecord_brace hblanks, hrun, readMembers,
    nextKey_brace _ hinner]

/-- **An object is refused for one member** whose value the field of its name refuses. -/
theorem refuses_record {effect : String → record → record} {name : String} {m : Member}
    {more : List (String × Member)} {field : RecordField record}
    (h : IsObject text (members ++ (name, m) :: more))
    (htakes : ∀ m ∈ members, Takes fields m.1 m.2.value (effect m.1))
    (honce : OnceEach (fields.map RecordField.name) members)
    (hfind : fields.find? (fun field => field.name == name) = some field)
    (hrefuses : Refuses field.read m.value) : Refuses (readRecord expected fields start) text := by
  obtain ⟨hnamed, inner, hinner, rfl⟩ := h
  intro blanks rest hblanks hrest
  have hends := (ends_brace rest).blank hinner
  have htail : members ≠ [] → Ends (membersText (true && members.isEmpty) ((name, m) :: more) ++
      (inner ++ byte '\x7d' :: rest)) := by
    intro hne
    rw [List.isEmpty_eq_false_iff.2 hne]
    exact ends_members _ hends
  obtain ⟨steps, seen, hsteps, hrun⟩ := readMembers_prefix
    (fun m' hm' => hnamed m' (List.mem_append_left _ hm')) htakes htail
    ⟨honce, fun _ _ _ => List.not_mem_nil⟩ (Nat.lt_succ_self _) start
  obtain ⟨steps, rfl⟩ : ∃ n, steps = n + 1 := ⟨steps - 1, by omega⟩
  have hm : m.Named name := hnamed (name, m) (List.mem_append_right _ List.mem_cons_self)
  obtain ⟨e, hread⟩ := readMember_refused steps seen hm hfind hrefuses
    (ends_members more hends) (members.foldl (fun r m => effect m.1 r) start)
  refine ⟨e, ?_⟩
  rw [List.append_assoc, objectText_members, readRecord_brace hblanks, membersText_append,
    List.append_assoc, hrun, membersText, List.append_assoc, readMembers, nextKey_member _ hm.spaced]
  simp only [hread]

end

end NoiseFilter.Json
