import NoiseFilter.Proofs.Rtp.Elements

/-!
# Packets read back

A packet that was read, given another payload and written, is read again with the same header and that
payload. The one thing that does not come back is the **padding among extension elements**: it is not
written where it stood, and zeros at the end of the block take its place (`Block.rewritten`).

Two things have to be arranged for that.

* **Only headers that were read come back.** `Header.WellFormed` is what reading a packet of at most
  65535 bytes establishes (`Header.of_read`): the elements can be written in their form, and
  they are few enough for the length field.
* **The padding is computed anew.** A packet whose padding flag is set gets one to four bytes of it,
  whatever it came with, and reading takes just these off (`unpad_append_padding`).

`Packet.decode_of_encode` puts the two together. `Packet.of_decode` also measures what writing costs:
a header that was read never grows by more than the three bytes that fill a word.
-/

namespace NoiseFilter.Rtp

/-! ### Blocks -/

namespace Block

theorem length_spellElements (b : Block) : b.spellElements.length = b.elementBytes := by
  obtain ⟨profile, elements, padding⟩ := b
  rw [spellElements, elementBytes, form]
  induction elements with
  | nil => rfl
  | cons e elements ih =>
    rw [List.flatMap_cons, List.length_append, ElementForm.length_spell, ih, List.foldr_cons]

/-- **A block that can be written and read back**: its elements are of its form, and their words can be
counted in sixteen bits. A block that is one whole element consists of words, and has no padding. -/
structure WellFormed (b : Block) : Prop where
  admits : ∀ e ∈ b.elements, b.form.Admits e
  whole : b.form = .whole →
    ∃ payload, b.elements = [⟨0, payload⟩] ∧ payload.length % 4 = 0 ∧ b.padding = 0
  small : b.elementBytes + 3 < 65536

/-- **A block as it comes back**: with the zeros after its elements as its padding. -/
def rewritten (b : Block) : Block := { b with padding := 4 * b.wordCount - b.elementBytes }

/-- Few elements fill the words that the length field announces. -/
theorem four_mul_wordCount {b : Block} (h : b.elementBytes + 3 < 65536) :
    4 * b.wordCount = b.elementBytes + (4 * b.wordCount - b.elementBytes) := by
  rw [wordCount, Nat.mod_eq_of_lt h]
  omega

theorem read_whole {profile words : UInt16} {rest : Bytes}
    (hform : ElementForm.ofProfile profile = .whole) (hlong : 4 * words.toNat ≤ rest.length) :
    read (Bytes.spell16 profile ++ Bytes.spell16 words ++ rest) =
      .ok (⟨profile, [⟨0, rest.take (4 * words.toNat)⟩], 0⟩, rest.drop (4 * words.toNat)) := by
  simp only [Bytes.spell16, List.cons_append, List.nil_append, read, Bytes.word16_spell16, hform]
  rw [if_neg (by omega)]

theorem read_elements {profile words : UInt16} {rest : Bytes} {r : ElementForm.Elements}
    (hform : ElementForm.ofProfile profile ≠ .whole) (hlong : 4 * words.toNat ≤ rest.length)
    (hread : (ElementForm.ofProfile profile).readElements (4 * words.toNat) rest = some r) :
    read (Bytes.spell16 profile ++ Bytes.spell16 words ++ rest) =
      .ok (⟨profile, r.elements, r.padding⟩, r.rest) := by
  simp only [Bytes.spell16, List.cons_append, List.nil_append, read, Bytes.word16_spell16]
  rw [if_neg (by omega)]
  cases hf : ElementForm.ofProfile profile with
  | whole => exact absurd hf hform
  | oneByte =>
    rw [hf] at hread
    simp only [hread]
  | twoByte =>
    rw [hf] at hread
    simp only [hread]

/-- **A block is read as it was written**, and nothing after it is touched. -/
theorem read_spell {b : Block} (h : b.WellFormed) (rest : Bytes) :
    read (b.spell ++ rest) = .ok (b.rewritten, rest) := by
  have hfill := four_mul_wordCount h.small
  have hlen := b.length_spellElements
  have hwords : (UInt16.ofNat b.wordCount).toNat = b.wordCount := by
    rw [UInt16.toNat_ofNat', wordCount]
    omega
  have hlong : 4 * (UInt16.ofNat b.wordCount).toNat ≤
      (b.spellElements ++ (Bytes.zeros (4 * b.wordCount - b.elementBytes) ++ rest)).length := by
    rw [List.length_append, List.length_append, Bytes.length_zeros, hlen, hwords]
    omega
  rw [spell, List.append_assoc, List.append_assoc]
  by_cases hform : b.form = .whole
  · -- one element of whole words, so there is nothing to fill up
    obtain ⟨payload, helements, hmod, hpad⟩ := h.whole hform
    have hspell : b.spellElements = payload := by
      rw [spellElements, helements, hform]
      simp [ElementForm.spell]
    rw [hspell] at hlen hlong ⊢
    have hsize : 4 * b.wordCount = payload.length := by
      rw [wordCount, Nat.mod_eq_of_lt h.small]
      omega
    rw [read_whole hform hlong, hwords, rewritten, hsize, ← hlen, Nat.sub_self, helements]
    simp [Bytes.zeros]
  · -- the zeros that fill the last word are read as padding
    have hread := ElementForm.readElements_spell hform h.admits (4 * b.wordCount - b.elementBytes) rest
    rw [← spellElements, hlen, ← hfill, ← hwords, List.append_assoc, hwords] at hread
    exact read_elements hform hlong (by rw [hwords]; exact hread)

/-- **What reading a block establishes**: the block can be written again, unless it is too large for its
length field, and no byte of it is counted twice. -/
theorem of_read {bytes rest : Bytes} {b : Block} (h : read bytes = .ok (b, rest)) :
    (b.elementBytes + 3 < 65536 → b.WellFormed) ∧
      4 + b.elementBytes + b.padding + rest.length ≤ bytes.length := by
  unfold read at h
  split at h
  · rename_i p₁ p₀ w₁ w₀ tail
    dsimp only at h
    split at h
    · cases h
    rename_i hlong
    rw [← length_spellElements]
    split at h
    · rename_i hform
      cases h
      have hform' : (form ⟨Bytes.word16 p₁ p₀,
          [⟨0, tail.take (4 * (Bytes.word16 w₁ w₀).toNat)⟩], 0⟩) = .whole := hform
      refine ⟨fun hsmall => ⟨?_, fun _ => ⟨_, rfl, ?_, rfl⟩, ?_⟩, ?_⟩
      · rw [hform']
        exact fun e _ => trivial
      · rw [List.length_take]
        omega
      · rwa [← length_spellElements]
      · rw [spellElements, hform']
        simp [ElementForm.spell]
        omega
    · rename_i hform
      split at h
      · cases h
      · rename_i r hr
        cases h
        obtain ⟨hadm, hlen⟩ := ElementForm.admits_of_readElements hr
        refine ⟨fun hsmall => ⟨hadm, fun hw => absurd hw hform, ?_⟩, ?_⟩
        · rwa [← length_spellElements]
        · rw [spellElements, form, List.length_cons, List.length_cons, List.length_cons,
            List.length_cons]
          dsimp only
          omega
  · cases h

end Block

/-! ### Headers -/

theorem words32_flatMap_spell32 (sources : List UInt32) :
    Bytes.words32 (sources.flatMap Bytes.spell32) = sources := by
  induction sources with
  | nil => rfl
  | cons w sources ih =>
    rw [List.flatMap_cons]
    simp only [Bytes.spell32, List.cons_append, List.nil_append, Bytes.words32, ih,
      Bytes.word32_spell32]

theorem length_flatMap_spell32 (sources : List UInt32) :
    (sources.flatMap Bytes.spell32).length = 4 * sources.length := by
  induction sources with
  | nil => rfl
  | cons w sources ih =>
    rw [List.flatMap_cons, List.length_append, ih, Bytes.length_spell32, List.length_cons]
    omega

theorem length_words32 : ∀ bytes : Bytes, (Bytes.words32 bytes).length = bytes.length / 4
  | [] => rfl
  | [_] | [_, _] | [_, _, _] => by simp [Bytes.words32]
  | _ :: _ :: _ :: _ :: rest => by
    rw [Bytes.words32, List.length_cons, length_words32 rest]
    simp only [List.length_cons]
    omega

namespace Header

/-- **A header that can be written and read back**: its fields fit their bits, and its block comes
back. -/
structure WellFormed (h : Header) : Prop where
  payloadType : h.payloadType.toNat < 128
  sources : h.sources.length < 16
  extension : ∀ b, h.extension = some b → b.WellFormed

/-- A header as it comes back. -/
def rewritten (h : Header) : Header := { h with extension := h.extension.map Block.rewritten }

/-- **Headers that agree** in all that a header says: they may differ in the padding among their
extension elements, which says nothing. -/
structure Agrees (h h' : Header) : Prop where
  version : h.version = h'.version
  padding : h.padding = h'.padding
  extension : h.extension.isSome = h'.extension.isSome
  profile : h.extension.map Block.profile = h'.extension.map Block.profile
  elements : h.extension.map Block.elements = h'.extension.map Block.elements
  marker : h.marker = h'.marker
  payloadType : h.payloadType = h'.payloadType
  sequence : h.sequence = h'.sequence
  timestamp : h.timestamp = h'.timestamp
  ssrc : h.ssrc = h'.ssrc
  sources : h.sources = h'.sources

theorem Agrees.refl (h : Header) : h.Agrees h := ⟨rfl, rfl, rfl, rfl, rfl, rfl, rfl, rfl, rfl, rfl, rfl⟩

/-- **A header comes back as it was**, up to the padding of its block. -/
theorem rewritten_agrees (h : Header) : h.rewritten.Agrees h := by
  obtain ⟨_, _, _ | b, _, _, _, _, _, _⟩ := h <;>
    exact ⟨rfl, rfl, rfl, rfl, rfl, rfl, rfl, rfl, rfl, rfl, rfl⟩

/-- The four fields of a first byte do not overlap. -/
theorem fields_of_firstByte {version count : Nat} (_hv : version < 4) (_hc : count < 16)
    (padding extension : Bool) {byte : Nat}
    (h : byte = version * 64 + flag padding 32 + flag extension 16 + count) :
    byte / 64 = version ∧ (byte / 32 % 2 == 1) = padding ∧ (byte / 16 % 2 == 1) = extension ∧
      byte % 16 = count := by
  subst h
  cases padding <;> cases extension <;> simp only [flag, beq_eq_false_iff_ne, beq_iff_eq] <;> grind

theorem toNat_firstByte {h : Header} (hs : h.sources.length < 16) :
    h.firstByte.toNat = h.version.val * 64 + flag h.padding 32 + flag h.extension.isSome 16 +
      h.sources.length := by
  have hv := h.version.isLt
  have hp : flag h.padding 32 ≤ 32 := by cases h.padding <;> simp [flag]
  have hx : flag h.extension.isSome 16 ≤ 16 := by cases h.extension.isSome <;> simp [flag]
  rw [firstByte, UInt8.toNat_ofNat']
  omega

theorem toNat_secondByte {h : Header} (hp : h.payloadType.toNat < 128) :
    h.secondByte.toNat = flag h.marker 128 + h.payloadType.toNat := by
  rw [secondByte, UInt8.toNat_or, Nat.or_comm]
  cases h.marker with
  | false => simp [flag]
  | true => exact (Nat.two_pow_add_eq_or_of_lt (i := 7) hp 1).symm

/-- The two fields of a second byte do not overlap. -/
theorem fields_of_secondByte {h : Header} (hp : h.payloadType.toNat < 128) :
    (h.secondByte.toNat / 128 == 1) = h.marker ∧ h.secondByte % 128 = h.payloadType := by
  have hbyte := toNat_secondByte hp
  have hmod : (h.secondByte % 128).toNat = h.secondByte.toNat % 128 := UInt8.toNat_mod _ _
  refine ⟨?_, UInt8.toNat_inj.1 ?_⟩
  · rw [hbyte]
    cases h.marker <;> simp only [flag, beq_eq_false_iff_ne, beq_iff_eq] <;> grind
  · rw [hmod, hbyte]
    cases h.marker <;> simp only [flag] <;> grind

/-- **A header is read as it was written**, and nothing after it is touched. -/
theorem read_spell {h : Header} (hwf : h.WellFormed) (rest : Bytes) :
    read (h.spell ++ rest) = .ok (h.rewritten, rest) := by
  obtain ⟨hversion, hpadding, hextension, hcount⟩ :=
    fields_of_firstByte h.version.isLt hwf.sources h.padding h.extension.isSome
      (toNat_firstByte hwf.sources)
  obtain ⟨hmarker, hpayloadType⟩ := fields_of_secondByte hwf.payloadType
  have hversion' : Fin.ofNat 4 (h.firstByte.toNat / 64) = h.version := by
    rw [hversion]
    exact Fin.ofNat_val_eq_self h.version
  have hsources := length_flatMap_spell32 h.sources
  simp only [spell, Bytes.spell16, Bytes.spell32, List.cons_append, List.nil_append,
    List.append_assoc, read, hversion', hpadding, hextension, hcount, hmarker, hpayloadType,
    Bytes.word16_spell16, Bytes.word32_spell32, ← hsources]
  rw [if_neg (by rw [List.length_append]; omega), List.take_left, List.drop_left,
    words32_flatMap_spell32, rewritten]
  obtain ⟨_, _, _ | b, _, _, _, _, _, _⟩ := h
  · rfl
  · simp only [Option.isSome_some, if_true, Option.map_some, Option.getD_some,
      Block.read_spell (hwf.extension b rfl)]
    rfl

/-- **What reading a header establishes**: the header can be written again, unless its block is too
large for its length field, and no byte of it is counted twice: what was read is at most the three bytes
short of the announced size that fill its last word. -/
theorem of_read {bytes rest : Bytes} {h : Header} (hread : read bytes = .ok (h, rest)) :
    (bytes.length ≤ 65535 → h.WellFormed) ∧ h.size + rest.length ≤ bytes.length + 3 := by
  unfold read at hread
  split at hread
  · rename_i b₀ b₁ s₁ s₀ t₃ t₂ t₁ t₀ r₃ r₂ r₁ r₀ tail
    dsimp only at hread
    split at hread
    · cases hread
    rename_i hlong
    have hcount : (Bytes.words32 (tail.take (4 * (b₀.toNat % 16)))).length = b₀.toNat % 16 := by
      rw [length_words32, List.length_take]
      omega
    have htype : (b₁ % 128).toNat < 128 := by
      rw [UInt8.toNat_mod]
      exact Nat.mod_lt _ (by decide)
    have hdrop : (tail.drop (4 * (b₀.toNat % 16))).length = tail.length - 4 * (b₀.toNat % 16) :=
      List.length_drop
    split at hread
    · -- the size of a block rounds up to words, by three bytes at most
      cases hblock : Block.read (tail.drop (4 * (b₀.toNat % 16))) with
      | error fault =>
        rw [hblock] at hread
        cases hread
      | ok pair =>
        obtain ⟨b, rest'⟩ := pair
        rw [hblock] at hread
        cases hread
        obtain ⟨hwf, hlen⟩ := Block.of_read hblock
        refine ⟨fun hsmall => ⟨htype, ?_, ?_⟩, ?_⟩
        · change (Bytes.words32 _).length < 16
          omega
        · rintro b' hb'
          cases hb'
          refine hwf ?_
          simp only [List.length_cons] at hsmall
          omega
        · simp only [size, fixedBytes, Block.size, hcount, Option.map_some, Option.getD_some,
            List.length_cons]
          omega
    · cases hread
      refine ⟨fun _ => ⟨htype, ?_, ?_⟩, ?_⟩
      · change (Bytes.words32 _).length < 16
        omega
      · rintro b' hb'
        cases hb'
      · simp only [size, fixedBytes, hcount, Option.map_none, Option.getD_none, List.length_cons]
        omega
  · cases hread

end Header

/-! ### Packets -/

/-- **Padding comes off as it was put on**: one to four bytes, the last of which counts them. -/
theorem unpad_append_padding (payload : Bytes) {count : Nat} (hpos : 0 < count) (hcount : count ≤ 4) :
    unpad (payload ++ (Bytes.zeros (count - 1) ++ [UInt8.ofNat count])) = .ok payload := by
  have hval : (UInt8.ofNat count).toNat = count := by
    rw [UInt8.toNat_ofNat']
    omega
  have hlast : (payload ++ (Bytes.zeros (count - 1) ++ [UInt8.ofNat count])).getLast? =
      some (UInt8.ofNat count) := by
    rw [← List.append_assoc, List.getLast?_concat]
  have hlen : (payload ++ (Bytes.zeros (count - 1) ++ [UInt8.ofNat count])).length =
      payload.length + count := by
    rw [List.length_append, List.length_append, Bytes.length_zeros, List.length_singleton]
    omega
  rw [unpad, hlast]
  simp only [hlen, hval]
  rw [if_neg (by omega), Nat.add_sub_cancel, List.take_left]

theorem unpad_le {bytes payload : Bytes} (h : unpad bytes = .ok payload) :
    payload.length ≤ bytes.length := by
  unfold unpad at h
  split at h
  · cases h
  · split at h
    · cases h
    · cases h
      exact List.length_take_le' _ _

namespace Packet

/-- What was written is the packet's bytes, and has the announced size. -/
theorem of_encode {p : Packet} {data : Bytes} (h : p.encode = .ok data) :
    data = p.spell ∧ data.length = p.size := by
  rw [encode] at h
  split at h
  · rename_i hsize
    cases h
    exact ⟨rfl, hsize⟩
  · cases h

theorem paddingBytes_of_unpadded {p : Packet} (h : p.header.padding = false) :
    p.paddingBytes = 0 := by
  rw [paddingBytes, h]
  rfl

/-- Without padding a packet is its header and its payload. -/
theorem size_of_unpadded {header : Header} (payload : Bytes) (h : header.padding = false) :
    size ⟨header, payload⟩ = header.size + payload.length := by
  rw [size, paddingBytes_of_unpadded h, Nat.add_zero]

theorem paddingBytes_pos {p : Packet} (h : p.header.padding = true) : 0 < p.paddingBytes := by
  rw [paddingBytes, if_pos h]
  omega

theorem paddingBytes_le (p : Packet) : p.paddingBytes ≤ 4 := by
  rw [paddingBytes]
  split <;> omega

theorem length_spell (p : Packet) :
    p.spell.length = p.header.spell.length + p.payload.length + p.paddingBytes := by
  have hpad : p.spellPadding.length = p.paddingBytes := by
    rw [spellPadding]
    cases hp : p.header.padding with
    | true =>
      have hpos := paddingBytes_pos hp
      rw [if_pos rfl, List.length_append, Bytes.length_zeros, List.length_singleton]
      omega
    | false => exact (paddingBytes_of_unpadded hp).symm
  rw [spell, List.length_append, List.length_append, hpad]

/-- **A packet can be written** exactly if its header is written in the size it announces; the payload
has no part in it. -/
theorem encode_eq_ok {header : Header} {payload : Bytes} :
    encode ⟨header, payload⟩ = .ok (spell ⟨header, payload⟩) ↔ header.spell.length = header.size := by
  obtain ⟨p, hp⟩ : ∃ p, p = Packet.mk header payload := ⟨_, rfl⟩
  have hlen := p.length_spell
  have hheader : p.header = header := by rw [hp]
  rw [← hp, ← hheader, encode, size]
  by_cases h : p.spell.length = p.header.size + p.payload.length + p.paddingBytes
  · simp only [h, if_true, true_iff]
    omega
  · simp only [h, if_false, reduceCtorEq, false_iff]
    omega

/-- **A packet is read as it was written.** -/
theorem decode_of_encode {p : Packet} {data : Bytes} (hwf : p.header.WellFormed)
    (h : p.encode = .ok data) : decode data = .ok ⟨p.header.rewritten, p.payload⟩ := by
  obtain ⟨rfl, -⟩ := of_encode h
  rw [decode, spell, List.append_assoc, Header.read_spell hwf]
  have hpadding : p.header.rewritten.padding = p.header.padding := rfl
  simp only [hpadding]
  cases hp : p.header.padding with
  | true =>
    simp only [spellPadding, paddingBytes, hp, if_true]
    rw [unpad_append_padding p.payload (by omega) (by omega)]
    rfl
  | false => simp [spellPadding, hp]

/-- **What reading a packet establishes.** -/
theorem of_decode {bytes : Bytes} {p : Packet} (h : decode bytes = .ok p) :
    (bytes.length ≤ 65535 → p.header.WellFormed) ∧
      p.header.size + p.payload.length ≤ bytes.length + 3 := by
  unfold decode at h
  split at h
  · cases h
  · rename_i header rest hread
    obtain ⟨hwf, hlen⟩ := Header.of_read hread
    split at h
    · cases hpad : unpad rest with
      | error fault =>
        rw [hpad] at h
        cases h
      | ok payload =>
        rw [hpad] at h
        cases h
        have := unpad_le hpad
        exact ⟨hwf, by dsimp only; omega⟩
    · cases h
      exact ⟨hwf, hlen⟩

end Packet

end NoiseFilter.Rtp
