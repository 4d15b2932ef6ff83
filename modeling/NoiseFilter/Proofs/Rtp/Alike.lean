import NoiseFilter.Proofs.Rtp.Buffered

/-!
# Headers that say the same

Two headers agree if they differ in nothing but the padding among their extension elements
(`Header.Agrees`). That padding is not written, so they are **written alike** (`Header.Agrees.spell_eq`);
but it is announced, and so one of them may be written in its announced size and the other not.

`Carries header payload size` asks for a packet with that payload of which `size` bytes are room enough,
under any header that agrees with `header`. It is the measure of what could be sent, however the header at
hand was laid out. Under a header that is written in its announced size there is nothing to be gained by
another one (`carries_iff`).
-/

namespace NoiseFilter.Rtp

/-! ### Headers that say the same -/

/-- Blocks that say the same are written alike. -/
theorem Block.spell_congr {b b' : Block} (hprofile : b.profile = b'.profile)
    (helements : b.elements = b'.elements) : b.spell = b'.spell := by
  obtain ⟨profile, elements, padding⟩ := b
  obtain ⟨profile', elements', padding'⟩ := b'
  cases hprofile
  cases helements
  rfl

namespace Header

variable {h h' : Header}

/-- Headers that agree have both no block, or blocks that say the same. -/
theorem Agrees.blocks (hagrees : h.Agrees h') : (h.extension = none ∧ h'.extension = none) ∨
    ∃ b b', h.extension = some b ∧ h'.extension = some b' ∧ b.profile = b'.profile ∧
      b.elements = b'.elements := by
  have hprofile := hagrees.profile
  have helements := hagrees.elements
  cases hb : h.extension with
  | none =>
    rw [hb] at hprofile
    exact .inl ⟨rfl, Option.map_eq_none_iff.1 hprofile.symm⟩
  | some b =>
    rw [hb] at hprofile helements
    obtain ⟨b', hb', hprofile'⟩ := Option.map_eq_some_iff.1 hprofile.symm
    rw [hb'] at helements
    exact .inr ⟨b, b', rfl, hb', hprofile'.symm, Option.some.inj helements⟩

/-- **Headers that agree are written alike**: the padding among their elements is not written. -/
theorem Agrees.spell_eq (hagrees : h.Agrees h') : h.spell = h'.spell := by
  have hblock : h.extension.map Block.spell = h'.extension.map Block.spell := by
    rcases hagrees.blocks with ⟨hnone, hnone'⟩ | ⟨b, b', hsome, hsome', hprofile, helements⟩
    · rw [hnone, hnone']
    · rw [hsome, hsome', Option.map_some, Option.map_some, Block.spell_congr hprofile helements]
  rw [spell, spell, firstByte, firstByte, secondByte, secondByte, hblock, hagrees.version,
    hagrees.padding, hagrees.extension, hagrees.marker, hagrees.payloadType, hagrees.sequence,
    hagrees.timestamp, hagrees.ssrc, hagrees.sources]

/-- **A header that is written in its announced size** can be read again, if one that agrees with it
can. -/
theorem Agrees.wellFormed (hagrees : h.Agrees h') (hwf : h.WellFormed)
    (hsize : h'.size = h.size) : h'.WellFormed := by
  refine ⟨hagrees.payloadType ▸ hwf.payloadType, hagrees.sources ▸ hwf.sources, ?_⟩
  rintro b' hb'
  rcases hagrees.blocks with ⟨-, hnone⟩ | ⟨b, c, hb, hc, hprofile, helements⟩
  · rw [hnone] at hb'
    cases hb'
  · obtain rfl : c = b' := Option.some.inj (hc.symm.trans hb')
    have hbwf := hwf.extension b hb
    have hform : c.form = b.form := by rw [Block.form, Block.form, hprofile]
    have hbytes : c.elementBytes = b.elementBytes := by
      rw [Block.elementBytes, Block.elementBytes, hform, helements]
    refine ⟨fun e he => ?_, fun hwhole => ?_, ?_⟩
    · rw [hform]
      exact hbwf.admits e (helements ▸ he)
    · -- a block of one element has no padding: with some it would be announced larger
      obtain ⟨payload, hpayload, hmod, hnone⟩ := hbwf.whole (hform ▸ hwhole)
      refine ⟨payload, helements ▸ hpayload, hmod, ?_⟩
      have hlen : b.elementBytes = payload.length := by
        rw [Block.elementBytes, ← hform, hwhole, hpayload]
        exact Nat.zero_add _
      rw [size, size, hb, hc, hagrees.sources, Option.map_some, Option.map_some, Option.getD_some,
        Option.getD_some, Block.size, Block.size, hbytes, hlen, hnone] at hsize
      omega
    · rw [hbytes]
      exact hbwf.small

end Header

/-- **A packet grows with its payload**, padding and all. -/
theorem Packet.size_mono (header : Header) {payload payload' : Bytes}
    (h : payload.length ≤ payload'.length) : size ⟨header, payload⟩ ≤ size ⟨header, payload'⟩ := by
  rw [size, size, paddingBytes, paddingBytes]
  dsimp only
  split <;> omega

/-- **A payload that can travel**: there is a packet with it that goes into `size` bytes and can be read
there, and whose header says what `header` says. -/
def Carries (header : Header) (payload : Bytes) (size : Nat) : Prop :=
  ∃ h', h'.Agrees header ∧ h'.WellFormed ∧ Packet.Fits ⟨h', payload⟩ size

/-- What is shorter travels too. -/
theorem Carries.of_le {header : Header} {payload payload' : Bytes} {size : Nat}
    (h : Carries header payload' size) (hle : payload.length ≤ payload'.length) :
    Carries header payload size := by
  obtain ⟨h', hagrees, hwf, hspelled, hfits⟩ := h
  exact ⟨h', hagrees, hwf, hspelled, Nat.le_trans (Packet.size_mono h' hle) hfits⟩

/-- **Under a header that is written in its announced size** a payload travels if it travels under that
header itself. -/
theorem carries_iff {header : Header} {payload : Bytes} {size : Nat}
    (hspelled : header.spell.length = header.size) :
    Carries header payload size ↔
      header.WellFormed ∧ (Packet.mk header payload).size ≤ size := by
  constructor
  · rintro ⟨h', hagrees, hwf, hspelled', hfits⟩
    have hsize : header.size = h'.size := by
      rw [← hspelled, ← hagrees.spell_eq]
      exact hspelled'
    refine ⟨hagrees.wellFormed hwf hsize, ?_⟩
    rw [Packet.size, Packet.paddingBytes] at hfits ⊢
    rw [hsize, ← hagrees.padding]
    exact hfits
  · rintro ⟨hwf, hfits⟩
    exact ⟨header, .refl header, hwf, hspelled, hfits⟩

end NoiseFilter.Rtp
