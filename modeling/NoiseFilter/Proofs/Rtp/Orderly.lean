import NoiseFilter.Proofs.Rtp.RoundTrip

/-!
# Headers in order

A header that is read and written again need not come back in its size. The announced size rounds
elements **and** the padding read among them up to words; what is written rounds the elements alone, and
puts zeros after them. The two agree if the padding is less than a word, and they are what arrived if the
elements and the padding fill their block.

* `Header.Orderly` are the bytes of a header whose block is filled, by items of a given shape: no
  element reaches beyond the block, and nothing stops it before its end.
* `Header.Orderly.size_eq`: with less than a word of padding such a header is announced, and written, in
  the size in which it arrived.
* `Header.Orderly.spell_eq`: if moreover the padding stands behind the elements, it is written byte for
  byte as it arrived. The fixed bytes and the sources are in any case (`Header.read_front`).
-/

namespace NoiseFilter.Rtp

/-! ### Fields and their bytes -/

/-- Whole words are spelled as they were read. -/
theorem flatMap_spell32_words32 : ∀ {bytes : Bytes}, bytes.length % 4 = 0 →
    (Bytes.words32 bytes).flatMap Bytes.spell32 = bytes
  | [], _ => rfl
  | [_], h | [_, _], h | [_, _, _], h => by simp at h
  | a :: b :: c :: d :: rest, h => by
    have hrest : rest.length % 4 = 0 := by
      simp only [List.length_cons] at h
      omega
    rw [Bytes.words32, List.flatMap_cons, Bytes.spell32_word32, flatMap_spell32_words32 hrest]
    rfl

/-- A flag read off a bit has the weight of that bit. -/
theorem flag_beq {n : Nat} (hn : n < 2) (weight : Nat) : flag (n == 1) weight = n * weight := by
  obtain rfl | rfl : n = 0 ∨ n = 1 := by omega
  · exact (Nat.zero_mul weight).symm
  · exact (Nat.one_mul weight).symm

namespace Header

/-- **The first byte** is made up again of its four fields. -/
theorem firstByte_eq {h : Header} {b : UInt8} (hversion : h.version = Fin.ofNat 4 (b.toNat / 64))
    (hpadding : h.padding = (b.toNat / 32 % 2 == 1))
    (hextension : h.extension.isSome = (b.toNat / 16 % 2 == 1))
    (hsources : h.sources.length = b.toNat % 16) : h.firstByte = b := by
  have hb := b.toNat_lt
  have hval : (Fin.ofNat 4 (b.toNat / 64)).val = b.toNat / 64 % 4 := rfl
  apply UInt8.toNat_inj.1
  rw [firstByte, UInt8.toNat_ofNat', hversion, hpadding, hextension, hsources, hval,
    flag_beq (Nat.mod_lt _ Nat.two_pos), flag_beq (Nat.mod_lt _ Nat.two_pos)]
  omega

/-- **The second byte** is made up again of its two fields. -/
theorem secondByte_eq {h : Header} {b : UInt8} (hmarker : h.marker = (b.toNat / 128 == 1))
    (htype : h.payloadType = b % 128) : h.secondByte = b := by
  have hb := b.toNat_lt
  have hval : h.payloadType.toNat = b.toNat % 128 := by rw [htype, UInt8.toNat_mod]; rfl
  apply UInt8.toNat_inj.1
  rw [toNat_secondByte (by omega), hmarker, flag_beq (by omega), hval]
  omega

/-- The bytes of a header, without its block. -/
def front (h : Header) : Bytes :=
  [h.firstByte, h.secondByte] ++ Bytes.spell16 h.sequence ++ Bytes.spell32 h.timestamp ++
    Bytes.spell32 h.ssrc ++ h.sources.flatMap Bytes.spell32

theorem spell_eq (h : Header) : h.spell = h.front ++ (h.extension.map Block.spell).getD [] := rfl

theorem length_front (h : Header) : h.front.length = fixedBytes + 4 * h.sources.length := by
  rw [front, List.length_append, length_flatMap_spell32]
  rfl

/-- **The fixed bytes and the sources are read**, and written again byte for byte. A block is read of
what comes after them, if the first byte says so. -/
theorem read_front {first : UInt8} {fixed sources : Bytes} (hfixed : fixed.length = 11)
    (hsources : sources.length = 4 * (first.toNat % 16)) :
    ∃ header : Option Block → Header,
      (∀ x, (header x).extension = x ∧ (x.isSome = (first.toNat / 16 % 2 == 1) →
        (header x).front = first :: fixed ++ sources)) ∧
      ∀ tail, read (first :: fixed ++ sources ++ tail) =
        if first.toNat / 16 % 2 = 1 then
          (Block.read tail).map fun (block, rest) => (header (some block), rest)
        else .ok (header none, tail) := by
  match fixed, hfixed with
  | [b₁, s₁, s₀, t₃, t₂, t₁, t₀, r₃, r₂, r₁, r₀], _ =>
    have hcount : (Bytes.words32 sources).length = first.toNat % 16 := by
      rw [length_words32]
      omega
    refine ⟨fun extension =>
      { version := Fin.ofNat 4 (first.toNat / 64)
        padding := first.toNat / 32 % 2 == 1
        extension
        marker := b₁.toNat / 128 == 1
        payloadType := b₁ % 128
        sequence := Bytes.word16 s₁ s₀
        timestamp := Bytes.word32 t₃ t₂ t₁ t₀
        ssrc := Bytes.word32 r₃ r₂ r₁ r₀
        sources := Bytes.words32 sources }, fun x => ⟨rfl, fun hx => ?_⟩, fun tail => ?_⟩
    · rw [front, firstByte_eq (b := first) rfl rfl hx hcount, secondByte_eq (b := b₁) rfl rfl,
        flatMap_spell32_words32 (by omega), Bytes.spell16_word16, Bytes.spell32_word32,
        Bytes.spell32_word32]
      rfl
    · simp only [List.cons_append, List.nil_append, read, ← hsources, List.take_left, List.drop_left,
        beq_iff_eq]
      rw [if_neg (by rw [List.length_append]; omega)]

end Header

/-! ### Blocks that are filled -/

/-- **A block in order**: one element, or items of the wanted shape, and they fill the block. -/
inductive Block.Orderly (shape : List Item → Prop) : Bytes → Prop
  /-- The block is one element. -/
  | whole (profile words : UInt16) (body : Bytes) (hform : ElementForm.ofProfile profile = .whole)
      (hfilled : body.length = 4 * words.toNat) :
      Orderly shape (Bytes.spell16 profile ++ Bytes.spell16 words ++ body)
  /-- The block is filled by items that its form can write. -/
  | items (profile words : UInt16) (items : List Item)
      (hform : ElementForm.ofProfile profile ≠ .whole)
      (hitems : ∀ i ∈ items, i.Admitted (.ofProfile profile))
      (hfilled : (Item.spellAll (.ofProfile profile) items).length = 4 * words.toNat)
      (hshape : shape items) :
      Orderly shape (Bytes.spell16 profile ++ Bytes.spell16 words ++
        Item.spellAll (.ofProfile profile) items)

/-- **A header in order**: the fixed bytes, the sources, and a block in order if the first byte
announces one. -/
inductive Header.Orderly (shape : List Item → Prop) : Bytes → Prop
  /-- There is no block. -/
  | plain (first : UInt8) (fixed sources : Bytes) (hfixed : fixed.length = 11)
      (hsources : sources.length = 4 * (first.toNat % 16)) (hflag : first.toNat / 16 % 2 = 0) :
      Orderly shape (first :: fixed ++ sources)
  /-- There is one. -/
  | extended (first : UInt8) (fixed sources block : Bytes) (hfixed : fixed.length = 11)
      (hsources : sources.length = 4 * (first.toNat % 16)) (hflag : first.toNat / 16 % 2 = 1)
      (hblock : Block.Orderly shape block) : Orderly shape (first :: fixed ++ sources ++ block)

/-- A header in order is in order for every shape that allows more. -/
theorem Header.Orderly.mono {shape shape' : List Item → Prop} {bytes : Bytes}
    (h : Orderly shape bytes) (hshape : ∀ items, shape items → shape' items) :
    Orderly shape' bytes := by
  rcases h with ⟨first, fixed, sources, hfixed, hsources, hflag⟩ |
    ⟨first, fixed, sources, block, hfixed, hsources, hflag, hblock⟩
  · exact .plain first fixed sources hfixed hsources hflag
  · refine .extended first fixed sources block hfixed hsources hflag ?_
    rcases hblock with ⟨profile, words, body, hform, hfilled⟩ |
      ⟨profile, words, items, hform, hitems, hfilled, hitems'⟩
    · exact .whole profile words body hform hfilled
    · exact .items profile words items hform hitems hfilled (hshape items hitems')

/-- **Less than a word of padding.** -/
def Item.Tight (items : List Item) : Prop := paddings items < 4

/-- **Less than a word of padding, and all of it behind the elements.** -/
def Item.Trailing (items : List Item) : Prop :=
  ∃ elements zeros, zeros < 4 ∧ items = Item.trailing elements zeros

theorem Item.tight_of_trailing {items : List Item} (h : Item.Trailing items) : Item.Tight items := by
  obtain ⟨elements, zeros, hzeros, rfl⟩ := h
  obtain ⟨-, hpadding, -⟩ := ElementForm.Elements.mk.inj (Item.read_trailing elements zeros [])
  rwa [Item.Tight, hpadding]

namespace Block

/-- **A block of filled words** is announced and written in the size of these words. -/
theorem size_of_filled {b : Block} {words : Nat} (hfilled : b.elementBytes + b.padding = 4 * words)
    (htight : b.padding < 4) (hsmall : 4 * words + 3 < 65536) :
    b.wordCount = words ∧ b.size = 4 + 4 * words ∧ b.spell.length = 4 + 4 * words := by
  have hcount : b.wordCount = words := by
    rw [wordCount, Nat.mod_eq_of_lt (by omega)]
    omega
  refine ⟨hcount, ?_, ?_⟩
  · rw [size]
    omega
  · rw [spell, List.length_append, List.length_append, List.length_append, length_spellElements,
      Bytes.length_spell16, Bytes.length_spell16, Bytes.length_zeros, hcount]
    omega

/-- **Items that fill their block are read**, and nothing after them. -/
theorem read_items {profile words : UInt16} {items : List Item}
    (hform : ElementForm.ofProfile profile ≠ .whole)
    (hitems : ∀ i ∈ items, i.Admitted (.ofProfile profile))
    (hfilled : (Item.spellAll (.ofProfile profile) items).length = 4 * words.toNat) (rest : Bytes) :
    read (Bytes.spell16 profile ++ Bytes.spell16 words ++ Item.spellAll (.ofProfile profile) items ++
      rest) = .ok (⟨profile, Item.elements items, Item.paddings items⟩, rest) := by
  have hread := ElementForm.readElements_items hform hitems (Nat.le_of_eq hfilled) rest
  rw [hfilled, Nat.sub_self, ElementForm.readElements_zero, Option.map_some,
    ElementForm.foldr_before_read] at hread
  rw [List.append_assoc]
  refine read_elements hform ?_ hread
  rw [List.length_append]
  omega

/-- **What a block in order holds**: `body` stands behind the profile and the number of words, which it
fills. It consists of the elements and of padding, and how they are mixed is of the wanted shape. -/
structure Holds (shape : List Item → Prop) (b : Block) (words : UInt16) (body : Bytes) : Prop where
  filled : b.elementBytes + b.padding = 4 * words.toNat
  mixed : (body = b.spellElements ∧ b.padding = 0) ∨
    ∃ items, shape items ∧ body = Item.spellAll b.form items ∧ b.elements = Item.elements items ∧
      b.padding = Item.paddings items

/-- **A block in order is read**, and nothing after it. -/
theorem Orderly.read {shape : List Item → Prop} {bytes : Bytes} (h : Orderly shape bytes) :
    ∃ b words body, Holds shape b words body ∧
      bytes = Bytes.spell16 b.profile ++ Bytes.spell16 words ++ body ∧
      ∀ rest, Block.read (bytes ++ rest) = .ok (b, rest) := by
  rcases h with ⟨profile, words, body, hform, hfilled⟩ | ⟨profile, words, items, hform, hitems, hfilled,
    hshape⟩
  · have hspell : body = spellElements ⟨profile, [⟨0, body⟩], 0⟩ := by
      rw [spellElements, form, hform, List.flatMap_singleton, ElementForm.spell]
    refine ⟨⟨profile, [⟨0, body⟩], 0⟩, words, body, ⟨?_, .inl ⟨hspell, rfl⟩⟩, rfl, fun rest => ?_⟩
    · rw [← length_spellElements, ← hspell]
      exact hfilled
    · rw [List.append_assoc, read_whole hform (by rw [List.length_append]; omega),
        List.take_left' hfilled, List.drop_left' hfilled]
  · refine ⟨⟨profile, Item.elements items, Item.paddings items⟩, words, _,
      ⟨?_, .inr ⟨items, hshape, rfl, rfl, rfl⟩⟩, rfl, read_items hform hitems hfilled⟩
    rw [← length_spellElements, ← hfilled, Item.length_spellAll]
    rfl

namespace Holds

variable {shape : List Item → Prop} {b : Block} {words : UInt16} {body : Bytes}

theorem length_body (h : Holds shape b words body) : body.length = 4 * words.toNat := by
  rw [← h.filled, ← length_spellElements]
  rcases h.mixed with ⟨hbody, hnone⟩ | ⟨items, -, hbody, helements, hpadding⟩
  · rw [hbody, hnone, Nat.add_zero]
  · rw [hbody, hpadding, Item.length_spellAll, spellElements, helements]

/-- **With less than a word of padding** the block is announced and written in the size of its words. -/
theorem size_eq (h : Holds shape b words body) (hshape : ∀ items, shape items → Item.Tight items)
    (hsmall : 4 * words.toNat + 3 < 65536) :
    b.wordCount = words.toNat ∧ b.size = 4 + 4 * words.toNat ∧
      b.spell.length = 4 + 4 * words.toNat := by
  refine size_of_filled h.filled ?_ hsmall
  rcases h.mixed with ⟨-, hnone⟩ | ⟨items, hitems, -, -, hpadding⟩
  · rw [hnone]
    decide
  · rw [hpadding]
    exact hshape items hitems

/-- **With all padding behind the elements** the block is written as it arrived. -/
theorem spell_eq (h : Holds Item.Trailing b words body) (hsmall : 4 * words.toNat + 3 < 65536) :
    b.spell = Bytes.spell16 b.profile ++ Bytes.spell16 words ++ body := by
  obtain ⟨hcount, -, -⟩ := h.size_eq (fun _ => Item.tight_of_trailing) hsmall
  have hzeros : 4 * words.toNat - b.elementBytes = b.padding := by
    have hfilled := h.filled
    omega
  have hbody : body = b.spellElements ++ Bytes.zeros b.padding := by
    rcases h.mixed with ⟨hbody, hnone⟩ | ⟨_, ⟨elements, zeros, -, rfl⟩, hbody, helements, hpadding⟩
    · rw [hbody, hnone]
      exact (List.append_nil _).symm
    · obtain ⟨helements', hpadding', -⟩ :=
        ElementForm.Elements.mk.inj (Item.read_trailing elements zeros [])
      rw [hbody, Item.spellAll_trailing, spellElements, helements, helements', hpadding, hpadding']
  rw [spell, hcount, hzeros, UInt16.ofNat_toNat, hbody, ← List.append_assoc]

end Holds

end Block

namespace Header

variable {shape : List Item → Prop} {bytes : Bytes}

/-- **A header in order is read**, and nothing after it. Its fixed bytes and sources are those of the
header, and so is what it holds of a block. -/
theorem Orderly.read (h : Orderly shape bytes) : ∃ header : Header,
    (∀ rest, Header.read (bytes ++ rest) = .ok (header, rest)) ∧
      ((header.extension = none ∧ bytes = header.front) ∨
        ∃ b words body, header.extension = some b ∧ Block.Holds shape b words body ∧
          bytes = header.front ++ (Bytes.spell16 b.profile ++ Bytes.spell16 words ++ body)) := by
  rcases h with ⟨first, fixed, sources, hfixed, hsources, hflag⟩ |
    ⟨first, fixed, sources, block, hfixed, hsources, hflag, hblock⟩
  · obtain ⟨header, hheader, hread⟩ := read_front hfixed hsources
    have hone : ¬ first.toNat / 16 % 2 = 1 := by omega
    refine ⟨header none, fun rest => ?_, .inl ⟨(hheader none).1, ?_⟩⟩
    · rw [hread, if_neg hone]
    · exact ((hheader none).2 (beq_eq_false_iff_ne.2 hone).symm).symm
  · obtain ⟨header, hheader, hread⟩ := read_front hfixed hsources
    obtain ⟨b, words, body, hholds, rfl, hblock⟩ := hblock.read
    refine ⟨header (some b), fun rest => ?_, .inr ⟨b, words, body, (hheader _).1, hholds, ?_⟩⟩
    · rw [List.append_assoc _ _ rest, hread, if_pos hflag, hblock]
      rfl
    · rw [(hheader (some b)).2 (beq_iff_eq.2 hflag).symm]

/-- **A header in order with less than a word of padding** is announced, and written, in the size in
which it arrived. -/
theorem Orderly.size_eq (h : Orderly shape bytes) (hshape : ∀ items, shape items → Item.Tight items)
    (hsmall : bytes.length ≤ 65535) {header : Header} {rest rest' : Bytes}
    (hread : Header.read (bytes ++ rest) = .ok (header, rest')) :
    rest' = rest ∧ header.size = bytes.length ∧ header.spell.length = bytes.length := by
  obtain ⟨header', hread', hholds⟩ := h.read
  obtain ⟨rfl, rfl⟩ := Prod.mk.inj (Except.ok.inj ((hread' rest).symm.trans hread))
  refine ⟨rfl, ?_⟩
  rcases hholds with ⟨hnone, hbytes⟩ | ⟨b, words, body, hsome, hholds, hbytes⟩
  · rw [size, Header.spell_eq, hnone, hbytes, List.length_append, length_front]
    exact ⟨rfl, rfl⟩
  · have hlen := congrArg List.length hbytes
    have hbody := hholds.length_body
    simp only [List.length_append, Bytes.length_spell16] at hlen
    obtain ⟨-, hsize, hspell⟩ := hholds.size_eq hshape (by omega)
    have hfront := header'.length_front
    rw [size, Header.spell_eq, hsome, List.length_append, Option.map_some, Option.map_some,
      Option.getD_some, Option.getD_some, hsize, hspell]
    omega

/-- **A header in order whose padding stands behind the elements** is written as it arrived. -/
theorem Orderly.spell_eq (h : Orderly Item.Trailing bytes) (hsmall : bytes.length ≤ 65535)
    {header : Header} {rest rest' : Bytes}
    (hread : Header.read (bytes ++ rest) = .ok (header, rest')) : header.spell = bytes := by
  obtain ⟨header', hread', hholds⟩ := h.read
  obtain ⟨rfl, rfl⟩ := Prod.mk.inj (Except.ok.inj ((hread' rest).symm.trans hread))
  rcases hholds with ⟨hnone, hbytes⟩ | ⟨b, words, body, hsome, hholds, hbytes⟩
  · rw [Header.spell_eq, hnone, hbytes]
    exact List.append_nil _
  · have hlen := congrArg List.length hbytes
    have hbody := hholds.length_body
    simp only [List.length_append, Bytes.length_spell16] at hlen
    rw [Header.spell_eq, hsome, hbytes, Option.map_some, Option.getD_some, hholds.spell_eq (by omega)]

end Header

end NoiseFilter.Rtp
