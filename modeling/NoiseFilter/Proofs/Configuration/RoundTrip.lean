import Mathlib
import NoiseFilter.Proofs.Configuration.Loading
import NoiseFilter.Proofs.Json.Records
import NoiseFilter.Proofs.Json.Writing

/-!
# Configurations survive their files

Writer and reader of configurations list the same fields apart from each other. That they agree is shown through
what lies between them, the documents of the grammar: `Configuration.WrittenAs` says of a document that it says
a configuration, with its names in any order among other names, and with nothing for what has its default.

* What a document says is what is parsed from it (`Configuration.parse_written`).
* What is written for a configuration says it (`Configuration.writtenAs_text`).
* So what is saved is loaded (`Configuration.round_trip`).

For one number this needs something of the decimal texts of floating point numbers: that the text written for
the threshold reads as the threshold (`ReadsBack`). A threshold that is no finite number is written as null, and
no number is read from that. Members are read one by one, each with its effect on the record; that the effects
together make the configuration is seen part by part (`get_foldl`).
-/

namespace NoiseFilter

open Binary Json

/-! ### What a document says -/

/-- A text that alone reads as a number of 32 bits. -/
def SpellsSingle (x : Single) (text : Bytes) : Prop := readAll readSingle text = .ok x

/-- **The text that is written for a number of 32 bits reads as that number.** -/
def ReadsBack (x : Single) : Prop := SpellsSingle x (utf8 (Document.singleText x))

namespace Settings

/-- The names of settings in documents. -/
def names : List String := ["enabled", "threshold", "aggressive", "carry_remainder"]

/-- **Settings as the members of an object**, in any order, those left out having their defaults; whatever other
members there are, their values are well-formed. -/
structure WrittenIn (members : List (String × Member)) (s : Settings) : Prop where
  once : OnceEach names members
  enabled : Given members "enabled" (· = utf8 (toString s.enabled)) (s.enabled = default.enabled)
  threshold : Given members "threshold" (SpellsSingle s.threshold) (s.threshold = default.threshold)
  aggressive : Given members "aggressive" (· = utf8 (toString s.aggressive))
    (s.aggressive = default.aggressive)
  carryRemainder : Given members "carry_remainder" (· = utf8 (toString s.carryRemainder))
    (s.carryRemainder = default.carryRemainder)
  extra : ∀ m ∈ members, m.1 ∉ names → IsValue m.2.value

/-- Settings as the text of an object. -/
def SpelledBy (s : Settings) (text : Bytes) : Prop := ∃ members, IsObject text members ∧ s.WrittenIn members

end Settings

namespace Configuration

/-- The names of a configuration's parts in documents. -/
def names : List String := ["noise_filter", "packet_bytes", "payload_type", "ssrc"]

/-- **A configuration as the members of an object**, in any order, parts left out having their defaults. -/
structure WrittenIn (members : List (String × Member)) (c : Configuration) : Prop where
  once : OnceEach names members
  filter : Given members "noise_filter" c.filter.SpelledBy (c.filter = default.filter)
  packetBytes : Given members "packet_bytes" (· = utf8 (toString c.packetBytes.toNat))
    (c.packetBytes = default.packetBytes)
  payloadType : Given members "payload_type" (· = utf8 (toString c.payloadType.toNat))
    (c.payloadType = default.payloadType)
  ssrc : Given members "ssrc" (· = utf8 (toString c.ssrc.toNat)) (c.ssrc = default.ssrc)
  extra : ∀ m ∈ members, m.1 ∉ names → IsValue m.2.value

/-- **A configuration as a document**: the text of an object, with blanks around it. -/
def WrittenAs (document : Bytes) (c : Configuration) : Prop :=
  ∃ before text after members, document = before ++ text ++ after ∧ Blank before ∧ Blank after ∧
    IsObject text members ∧ c.WrittenIn members

end Configuration

/-! ### What is read from it -/

section

variable {record α : Type} {fields : List (RecordField record)} {name : String} {value : Bytes}

/-- A member of a field puts its value into the record. -/
theorem takes_field {r : Reader α} {set : α → record → record} {a : α} {effect : record → record}
    (hfind : fields.find? (fun field => field.name == name) = some (.of name r set)) (h : Reads r value a)
    (heffect : effect = set a) : Takes fields name value effect :=
  heffect ▸ .field hfind (h.map set)

/-- A member of no field is passed over. -/
theorem takes_extra (hname : name ∉ fields.map RecordField.name) (h : IsValue value) :
    Takes fields name value id := by
  refine .extra (List.find?_eq_none.2 fun field hfield hsame => hname ?_) h
  exact eq_of_beq hsame ▸ List.mem_map_of_mem hfield

/-- **One part of a record** after all its members: what the members of that name say, or what it was. -/
theorem get_foldl (effect : String → record → record) (get : record → α) {a : α}
    (hsame : ∀ r, get (effect name r) = a) (hother : ∀ other, other ≠ name → ∀ r, get (effect other r) = get r)
    (members : List (String × Member)) (r : record) (hleft : name ∉ members.map Prod.fst → a = get r) :
    get (members.foldl (fun r m => effect m.1 r) r) = a := by
  induction members generalizing r with
  | nil => exact (hleft List.not_mem_nil).symm
  | cons m members ih =>
    refine ih (effect m.1 r) fun hout => ?_
    by_cases hname : m.1 = name
    · rw [hname, hsame]
    · rw [hother _ hname]
      refine hleft ?_
      rw [List.map_cons, List.mem_cons, not_or]
      exact ⟨fun h => hname h.symm, hout⟩

end

namespace Settings

variable {s : Settings} {text : Bytes} {members : List (String × Member)}

/-- Settings with one of them, by its name, taken from others. -/
def taking (s : Settings) (name : String) (r : Settings) : Settings :=
  if name = "enabled" then { r with enabled := s.enabled }
  else if name = "threshold" then { r with threshold := s.threshold }
  else if name = "aggressive" then { r with aggressive := s.aggressive }
  else if name = "carry_remainder" then { r with carryRemainder := s.carryRemainder }
  else r

theorem takes_taking (h : s.WrittenIn members) :
    ∀ m ∈ members, Takes fields m.1 m.2.value (s.taking m.1) := by
  rintro ⟨name, m⟩ hm
  by_cases hknown : name ∈ names
  · simp only [names, List.mem_cons, List.not_mem_nil, or_false] at hknown
    rcases hknown with rfl | rfl | rfl | rfl
    · rw [h.enabled.spelled _ hm rfl]
      exact takes_field rfl (reads_boolean s.enabled) rfl
    · exact takes_field rfl (reads_single (h.threshold.spelled _ hm rfl)) rfl
    · rw [h.aggressive.spelled _ hm rfl]
      exact takes_field rfl (reads_boolean s.aggressive) rfl
    · rw [h.carryRemainder.spelled _ hm rfl]
      exact takes_field rfl (reads_boolean s.carryRemainder) rfl
  · have heffect : s.taking name = id := by
      simp only [names, List.mem_cons, List.not_mem_nil, or_false, not_or] at hknown
      funext r
      simp [taking, hknown]
    rw [heffect]
    exact takes_extra hknown (h.extra _ hm hknown)

/-- Together the members make the settings. -/
theorem foldl_taking (h : s.WrittenIn members) :
    members.foldl (fun r m => s.taking m.1 r) default = s := by
  have hext : ∀ r : Settings, r.enabled = s.enabled → r.threshold = s.threshold →
      r.aggressive = s.aggressive → r.carryRemainder = s.carryRemainder → r = s := by
    rintro ⟨⟩ rfl rfl rfl rfl
    rfl
  refine hext _ ?_ ?_ ?_ ?_
  · exact get_foldl s.taking enabled (fun r => rfl) (by grind [taking]) members default h.enabled.leftOut
  · exact get_foldl s.taking threshold (fun r => rfl) (by grind [taking]) members default
      h.threshold.leftOut
  · exact get_foldl s.taking aggressive (fun r => rfl) (by grind [taking]) members default
      h.aggressive.leftOut
  · exact get_foldl s.taking carryRemainder (fun r => rfl) (by grind [taking]) members default
      h.carryRemainder.leftOut

/-- **Settings are read from every object that says them.** -/
theorem reads (h : s.SpelledBy text) : Reads reader text s := by
  obtain ⟨members, hobject, hs⟩ := h
  have hreads : Reads reader text _ := reads_record hobject (takes_taking hs) hs.once
  rwa [foldl_taking hs] at hreads

end Settings

namespace Configuration

variable {c : Configuration} {text : Bytes} {members : List (String × Member)}

/-- A configuration with one of its parts, by its name, taken from another. -/
def taking (c : Configuration) (name : String) (r : Configuration) : Configuration :=
  if name = "noise_filter" then { r with filter := c.filter }
  else if name = "packet_bytes" then { r with packetBytes := c.packetBytes }
  else if name = "payload_type" then { r with payloadType := c.payloadType }
  else if name = "ssrc" then { r with ssrc := c.ssrc }
  else r

theorem takes_taking (h : c.WrittenIn members) :
    ∀ m ∈ members, Takes fields m.1 m.2.value (c.taking m.1) := by
  rintro ⟨name, m⟩ hm
  by_cases hknown : name ∈ names
  · simp only [names, List.mem_cons, List.not_mem_nil, or_false] at hknown
    rcases hknown with rfl | rfl | rfl | rfl
    · exact takes_field rfl (Settings.reads (h.filter.spelled _ hm rfl)) rfl
    · rw [h.packetBytes.spelled _ hm rfl, utf8_toString]
      refine takes_field rfl (reads_natural "usize" c.packetBytes.toNat_lt (by decide)) ?_
      rw [UInt64.ofNat_toNat]
      rfl
    · rw [h.payloadType.spelled _ hm rfl, utf8_toString]
      refine takes_field rfl (reads_natural "u8" c.payloadType.toNat_lt (by decide)) ?_
      rw [UInt8.ofNat_toNat]
      rfl
    · rw [h.ssrc.spelled _ hm rfl, utf8_toString]
      refine takes_field rfl (reads_natural "u32" c.ssrc.toNat_lt (by decide)) ?_
      rw [UInt32.ofNat_toNat]
      rfl
  · have heffect : c.taking name = id := by
      simp only [names, List.mem_cons, List.not_mem_nil, or_false, not_or] at hknown
      funext r
      simp [taking, hknown]
    rw [heffect]
    exact takes_extra hknown (h.extra _ hm hknown)

/-- Together the members make the configuration. -/
theorem foldl_taking (h : c.WrittenIn members) :
    members.foldl (fun r m => c.taking m.1 r) default = c := by
  have hext : ∀ r : Configuration, r.filter = c.filter → r.packetBytes = c.packetBytes →
      r.payloadType = c.payloadType → r.ssrc = c.ssrc → r = c := by
    rintro ⟨⟩ rfl rfl rfl rfl
    rfl
  refine hext _ ?_ ?_ ?_ ?_
  · exact get_foldl c.taking filter (fun r => rfl) (by grind [taking]) members default h.filter.leftOut
  · exact get_foldl c.taking packetBytes (fun r => rfl) (by grind [taking]) members default
      h.packetBytes.leftOut
  · exact get_foldl c.taking payloadType (fun r => rfl) (by grind [taking]) members default
      h.payloadType.leftOut
  · exact get_foldl c.taking ssrc (fun r => rfl) (by grind [taking]) members default h.ssrc.leftOut

/-- **A configuration is read from every document that says it.** -/
theorem parse_written {document : Bytes} (h : c.WrittenAs document) : parse document = .ok c := by
  obtain ⟨before, text, after, members, rfl, hbefore, hafter, hobject, hc⟩ := h
  have hreads : Reads reader text _ := reads_record hobject (takes_taking hc) hc.once
  rw [foldl_taking hc] at hreads
  exact hreads.readAll hbefore hafter

end Configuration

/-! ### What is written -/

section

variable {documents : List (String × Document)} {depth : Nat} {name : String}

/-- A member that is written says what its document says. -/
theorem given_written {d : Document} {spelled : Bytes → Prop} {leftOut : Prop}
    (honce : (documents.map Prod.fst).Nodup) (hmem : (name, d) ∈ documents)
    (h : spelled (utf8 (d.prettyAt depth))) :
    Given (documents.map (Document.written depth)) name spelled leftOut := by
  constructor
  · intro m hm hname
    obtain ⟨m', hm', rfl⟩ := List.mem_map.1 hm
    have hsame : m' = (name, d) := List.inj_on_of_nodup_map honce hm' hmem hname
    rw [hsame]
    exact h
  · intro hout
    have hwritten : Document.written depth (name, d) ∈ documents.map (Document.written depth) :=
      List.mem_map_of_mem hmem
    exact absurd (List.mem_map_of_mem hwritten) hout

theorem once_written (honce : (documents.map Prod.fst).Nodup) (names : List String) :
    OnceEach names (documents.map (Document.written depth)) := by
  rw [OnceEach, List.pairwise_map]
  refine (List.pairwise_map.1 honce).imp ?_
  intro m m' hne _
  exact hne

/-- Members that are written are known if all their names are. -/
theorem known_written {names : List String} (h : documents.map Prod.fst = names) :
    ∀ m ∈ documents.map (Document.written depth), m.1 ∉ names → IsValue m.2.value := by
  intro m hm hout
  obtain ⟨m', hm', rfl⟩ := List.mem_map.1 hm
  exact absurd (h ▸ List.mem_map_of_mem hm') hout

end

namespace Settings

variable {s : Settings}

/-- The members that are written for settings. -/
def documents (s : Settings) : List (String × Document) :=
  [("enabled", .boolean s.enabled), ("threshold", .single s.threshold), ("aggressive", .boolean s.aggressive),
    ("carry_remainder", .boolean s.carryRemainder)]

theorem nodup_documents (s : Settings) : (s.documents.map Prod.fst).Nodup := by
  change names.Nodup
  decide

theorem plainName_names : ∀ name ∈ names, Document.PlainName name :=
  Document.plainName_of_all (by decide +kernel)

theorem isObject_pretty (s : Settings) (depth : Nat) :
    IsObject (utf8 (s.toDocument.prettyAt depth)) (s.documents.map (Document.written (depth + 1))) :=
  Document.isObject_pretty (fun _ hm => plainName_names _ (List.mem_map_of_mem hm)) (List.cons_ne_nil _ _) depth

/-- **Settings are written as what they are**, if the text of their threshold reads as it. -/
theorem spelledBy_pretty (h : ReadsBack s.threshold) (depth : Nat) :
    s.SpelledBy (utf8 (s.toDocument.prettyAt depth)) := by
  refine ⟨_, s.isObject_pretty depth, once_written s.nodup_documents names, ?_, ?_, ?_, ?_, known_written rfl⟩
  · exact given_written s.nodup_documents (d := .boolean s.enabled) (by simp [documents]) rfl
  · exact given_written s.nodup_documents (d := .single s.threshold) (by simp [documents]) h
  · exact given_written s.nodup_documents (d := .boolean s.aggressive) (by simp [documents]) rfl
  · exact given_written s.nodup_documents (d := .boolean s.carryRemainder) (by simp [documents]) rfl

/-- A threshold that is no finite number is written as null, and settings with null are refused. -/
theorem refuses_pretty (h : s.threshold.isFinite = false) (depth : Nat) :
    Refuses reader (utf8 (s.toDocument.prettyAt depth)) := by
  have hnull : Document.singleText s.threshold = "null" := by
    rw [Document.singleText, h, if_neg Bool.false_ne_true]
  have henabled : ∀ m ∈ [Document.written (depth + 1) ("enabled", .boolean s.enabled)],
      Takes fields m.1 m.2.value (s.taking m.1) :=
    List.forall_mem_singleton.2 (takes_field rfl (reads_boolean s.enabled) rfl)
  refine refuses_record (s.isObject_pretty depth) henabled (List.pairwise_singleton _ _) rfl ?_
  refine Refuses.map ?_ _
  change Refuses readSingle (utf8 (Document.singleText s.threshold))
  rw [hnull]
  exact refuses_null

end Settings

namespace Configuration

variable {c : Configuration}

/-- The members that are written for a configuration. -/
def documents (c : Configuration) : List (String × Document) :=
  [("noise_filter", c.filter.toDocument), ("packet_bytes", .natural c.packetBytes.toNat),
    ("payload_type", .natural c.payloadType.toNat), ("ssrc", .natural c.ssrc.toNat)]

theorem nodup_documents (c : Configuration) : (c.documents.map Prod.fst).Nodup := by
  change names.Nodup
  decide

theorem plainName_names : ∀ name ∈ names, Document.PlainName name :=
  Document.plainName_of_all (by decide +kernel)

theorem isObject_text (c : Configuration) :
    IsObject (utf8 c.text) (c.documents.map (Document.written 1)) :=
  Document.isObject_pretty (fun _ hm => plainName_names _ (List.mem_map_of_mem hm)) (List.cons_ne_nil _ _) 0

/-- **A configuration is written as what it is**, if the text of its threshold reads as it. -/
theorem writtenAs_text (h : ReadsBack c.filter.threshold) : c.WrittenAs (utf8 c.text) := by
  refine ⟨[], _, [], _, by simp, blank_nil, blank_nil, c.isObject_text, once_written c.nodup_documents names,
    ?_, ?_, ?_, ?_, known_written rfl⟩
  · exact given_written c.nodup_documents (d := c.filter.toDocument) (by simp [documents])
      (Settings.spelledBy_pretty h 1)
  · exact given_written c.nodup_documents (d := .natural c.packetBytes.toNat) (by simp [documents]) rfl
  · exact given_written c.nodup_documents (d := .natural c.payloadType.toNat) (by simp [documents]) rfl
  · exact given_written c.nodup_documents (d := .natural c.ssrc.toNat) (by simp [documents]) rfl

/-- What is written for a threshold that is no finite number is refused. -/
theorem parse_text_refused (h : c.filter.threshold.isFinite = false) :
    ∃ e, parse (utf8 c.text) = .error e := by
  have hrefuses : Refuses reader (utf8 c.text) := by
    have hnone : ∀ m ∈ ([] : List (String × Member)), Takes fields m.1 m.2.value (c.taking m.1) := nofun
    exact refuses_record c.isObject_text hnone .nil rfl ((Settings.refuses_pretty h 1).map _)
  have hread := hrefuses.readAll blank_nil blank_nil
  rwa [List.nil_append, List.append_nil] at hread

/-! ### Loading and saving -/

/-- **What is loaded from a path** is a configuration, if its threshold is a probability, and otherwise the
loading fails. -/
structure Loads (t : FileTree) (path : String) (c : Configuration) : Prop where
  loaded : c.filter.threshold.IsProbability → ∀ place,
    (load FileTree.fileSystem (some path) place).run t = (.ok c, t)
  rejected : ¬ c.filter.threshold.IsProbability → ∀ place,
    ∃ why, (load FileTree.fileSystem (some path) place).run t = (.error why, t)

variable {t : FileTree} {path : String} {document : String}

/-- A text file holds what its text is read as. -/
theorem stored_iff (hread : t.read path = .ok (utf8 document)) (place : Option String) :
    Stored t (some path) place c ↔ parse (utf8 document) = .ok c := by
  simp [Stored, source?, hread, utf8?_utf8]

theorem loads_of_parse (hread : t.read path = .ok (utf8 document)) (h : parse (utf8 document) = .ok c) :
    Loads t path c := by
  constructor
  · intro hthreshold place
    obtain ⟨r, hrun, hr⟩ := load_run t (some path) place
    rw [hrun, (hr c).2 ⟨(stored_iff hread place).2 h, hthreshold⟩]
  · intro hthreshold place
    obtain ⟨r, hrun, hr⟩ := load_run t (some path) place
    rcases r with why | c'
    · exact ⟨why, hrun⟩
    · obtain ⟨hstored, hthreshold'⟩ := (hr c').1 rfl
      obtain rfl : c = c' := Except.ok.inj (h.symm.trans ((stored_iff hread place).1 hstored))
      exact absurd hthreshold' hthreshold

theorem loads_of_refused (hread : t.read path = .ok (utf8 document))
    (h : ∃ e, parse (utf8 document) = .error e) (hthreshold : ¬ c.filter.threshold.IsProbability) :
    Loads t path c := by
  refine ⟨fun hthreshold' => absurd hthreshold' hthreshold, fun _ place => ?_⟩
  obtain ⟨e, h⟩ := h
  obtain ⟨r, hrun, hr⟩ := load_run t (some path) place
  rcases r with why | c'
  · exact ⟨why, hrun⟩
  · have hstored := (stored_iff hread place).1 ((hr c').1 rfl).1
    rw [h] at hstored
    cases hstored

/-- The directories above a path are made. -/
def makeAbove (path : String) : StateM FileTree (Except FileError Unit) :=
  match Path.parents path with
  | [] => pure (.ok ())
  | directories => FileTree.fileSystem.makeDirectories directories

/-- **A configuration is saved** once the directories above its path are made and the path keeps what is
written. -/
theorem save_run {t' : FileTree} {given place : Option String} {target : List String}
    (hpath : given.or place = some path) (hmade : (makeAbove path).run t = (.ok (), t'))
    (hkeeps : t'.Keeps path target) :
    (save FileTree.fileSystem c given place).run t = (.ok path, t'.put target (.file (utf8 c.text))) := by
  have hwrite := FileTree.run_write_of_ok (hkeeps.write_eq (utf8 c.text))
  simp only [save, hpath]
  rw [makeAbove] at hmade
  generalize Path.parents path = directories at hmade ⊢
  rcases directories with _ | ⟨directory, directories⟩
  · exact (FileTree.run_bind hmade _).trans ((FileTree.run_bind hwrite _).trans rfl)
  · exact (FileTree.run_bind hmade _).trans ((FileTree.run_bind hwrite _).trans rfl)

/-- **What is saved is what is loaded**, whatever threshold it is if it is a probability, and nothing otherwise. -/
theorem loads_saved {target : List String} (hkeeps : t.Keeps path target)
    (h : c.filter.threshold.isFinite = true → ReadsBack c.filter.threshold) :
    Loads (t.put target (.file (utf8 c.text))) path c := by
  have hread := hkeeps.read_put (utf8 c.text)
  cases hfinite : c.filter.threshold.isFinite with
  | true => exact loads_of_parse hread (parse_written (writtenAs_text (h hfinite)))
  | false =>
    refine loads_of_refused hread (parse_text_refused hfinite) fun hthreshold => ?_
    rw [hthreshold.isFinite] at hfinite
    cases hfinite

/-- **Configurations survive their files.**

What is saved is loaded from the same path again, whatever its numbers and flags are, if the text of its
threshold reads as that threshold; one whose threshold is no probability is saved all the same, and then
refused. What a document says, with any of the names in any order among others, is loaded, and the defaults for
the names that are left out. And nothing is ever loaded whose threshold is no probability. -/
theorem round_trip :
    (∀ (c : Configuration) (t t' : FileTree) (given place : Option String) (path : String)
        (target : List String), given.or place = some path → (makeAbove path).run t = (.ok (), t') →
      t'.Keeps path target → (c.filter.threshold.isFinite = true → ReadsBack c.filter.threshold) →
        ∃ saved, (save FileTree.fileSystem c given place).run t = (.ok path, saved) ∧ Loads saved path c) ∧
    (∀ (c : Configuration) (t : FileTree) (path document : String), t.read path = .ok (utf8 document) →
      c.WrittenAs (utf8 document) → Loads t path c) ∧
    ∀ (c : Configuration) (t t' : FileTree) (given place : Option String),
      (load FileTree.fileSystem given place).run t = (.ok c, t') → c.filter.threshold.IsProbability := by
  refine ⟨?_, ?_, ?_⟩
  · intro c t t' given place path target hpath hmade hkeeps hthreshold
    exact ⟨_, save_run hpath hmade hkeeps, loads_saved hkeeps hthreshold⟩
  · intro c t path document hread hc
    exact loads_of_parse hread (parse_written hc)
  · intro c t t' given place hload
    obtain ⟨r, hrun, hr⟩ := load_run t given place
    rw [hrun] at hload
    exact ((hr c).1 (congrArg Prod.fst hload)).2

/-- A threshold of three tenths, saved and loaded. -/
theorem round_trip_of_three_tenths :
    let t : FileTree := ⟨["w"], [(["w"], .directory)]⟩
    let c : Configuration := ⟨⟨true, .ofRatio false 3 10, false, true⟩, 960, 96, 7⟩
    ReadsBack c.filter.threshold ∧
      ∃ saved, (save FileTree.fileSystem c (some "c") none).run t = (.ok "c", saved) ∧
        (load FileTree.fileSystem (some "c") none).run saved = (.ok c, saved) := by
  intro t c
  have hback : ReadsBack c.filter.threshold := by
    have htext : Document.singleText c.filter.threshold = String.ofList ['0', '.', '3'] := by decide +kernel
    rw [ReadsBack, SpellsSingle, htext, utf8_ascii ['0', '.', '3'] (by simp)]
    decide +kernel
  have hprobability : c.filter.threshold.IsProbability := by
    rw [Value.isProbability_iff]
    decide +kernel
  have hparents : Path.parents "c" = [""] := by
    have hnames : Path.names "c" = ["c"] := by
      rw [Path.names, (by cbv : "c".splitOn "/" = ["c"])]
      simp
    rw [Path.parents, hnames, (by cbv : "c".startsWith "/" = false)]
    rfl
  have hmade : (makeAbove "c").run t = (.ok (), t) := by
    rw [makeAbove, hparents]
    rfl
  have hkeeps : t.Keeps "c" ["w", "c"] := ⟨by cbv, by cbv, by cbv, .inl rfl⟩
  obtain ⟨saved, hsaved, hloads⟩ := round_trip.1 c t t (some "c") none "c" _ rfl hmade hkeeps fun _ => hback
  exact ⟨hback, saved, hsaved, hloads.loaded hprobability none⟩

end Configuration

end NoiseFilter
