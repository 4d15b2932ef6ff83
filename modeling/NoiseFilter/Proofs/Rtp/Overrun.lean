import NoiseFilter.Proofs.Rtp.Elements

/-!
# Packets that overrun

Reading a packet has three ends: a packet, a refusal, and an **overrun**, where an element of the
extension block reaches past the end of the bytes. The third is no answer at all, and this file says on
which bytes it happens.

The block itself is checked: bytes that end before it does are refused. What is not checked is an
element that begins inside the block, and such an element may say any length. So bytes overrun exactly
if they are a header up to its block, a block of one of the two element forms, items inside the block,
and then an element inside the block of which the end is missing (`Packet.decode_eq_overrun_iff`).
-/

namespace NoiseFilter.Rtp

/-- **A block that overruns**: all of it is there, but an element that begins in it is cut off. -/
inductive Block.Overruns : Bytes → Prop
  | cutOff (profile words : UInt16) (items : List Item) (rest : Bytes)
      (hform : ElementForm.ofProfile profile ≠ .whole)
      (hitems : ∀ i ∈ items, i.Admitted (.ofProfile profile))
      (hleft : (Item.spellAll (.ofProfile profile) items).length < 4 * words.toNat)
      (hlong : 4 * words.toNat ≤ (Item.spellAll (.ofProfile profile) items ++ rest).length)
      (hrest : (ElementForm.ofProfile profile).CutOff rest) :
      Overruns (Bytes.spell16 profile ++ Bytes.spell16 words ++
        (Item.spellAll (.ofProfile profile) items ++ rest))

/-- **A packet that overruns**: the fixed bytes, the first of which announces a block, the sources, and
then a block that overruns. -/
inductive Overruns : Bytes → Prop
  | block (first : UInt8) (fixed sources block : Bytes) (hfixed : fixed.length = 11)
      (hsources : sources.length = 4 * (first.toNat % 16)) (hflag : first.toNat / 16 % 2 = 1)
      (hblock : Block.Overruns block) : Overruns (first :: fixed ++ (sources ++ block))

theorem Block.read_eq_overrun_iff {bytes : Bytes} :
    read bytes = .error .overrun ↔ Block.Overruns bytes := by
  constructor
  · intro h
    unfold read at h
    split at h
    · rename_i p₁ p₀ w₁ w₀ tail
      dsimp only at h
      split at h
      · cases h
      rename_i hlong
      split at h
      · cases h
      · rename_i hform
        split at h
        · rename_i hnone
          obtain ⟨items, rest, hitems, rfl, hleft, hrest⟩ :=
            (ElementForm.readElements_eq_none_iff hform).1 hnone
          have hback : Bytes.spell16 (Bytes.word16 p₁ p₀) ++ Bytes.spell16 (Bytes.word16 w₁ w₀) =
              [p₁, p₀, w₁, w₀] := by
            rw [Bytes.spell16_word16, Bytes.spell16_word16]
            rfl
          have hoverruns := Block.Overruns.cutOff (Bytes.word16 p₁ p₀) (Bytes.word16 w₁ w₀) items
            rest hform hitems hleft (by omega) hrest
          rw [hback] at hoverruns
          exact hoverruns
        · cases h
    · cases h
  · rintro ⟨profile, words, items, rest, hform, hitems, hleft, hlong, hrest⟩
    have hnone : (ElementForm.ofProfile profile).readElements (4 * words.toNat)
        (Item.spellAll (.ofProfile profile) items ++ rest) = none :=
      (ElementForm.readElements_eq_none_iff hform).2 ⟨items, rest, hitems, rfl, hleft, hrest⟩
    simp only [Bytes.spell16, List.cons_append, List.nil_append, read, Bytes.word16_spell16]
    rw [if_neg (by omega)]
    cases hf : ElementForm.ofProfile profile with
    | whole => exact absurd hf hform
    | oneByte =>
      rw [hf] at hnone
      simp only [hnone]
    | twoByte =>
      rw [hf] at hnone
      simp only [hnone]

theorem Header.read_eq_overrun_iff {bytes : Bytes} :
    read bytes = .error .overrun ↔ Overruns bytes := by
  constructor
  · intro h
    unfold read at h
    split at h
    · rename_i b₀ b₁ s₁ s₀ t₃ t₂ t₁ t₀ r₃ r₂ r₁ r₀ tail
      dsimp only at h
      split at h
      · cases h
      rename_i hlong
      split at h
      · rename_i hflag
        have hblock : Block.read (tail.drop (4 * (b₀.toNat % 16))) = .error .overrun := by
          cases hread : Block.read (tail.drop (4 * (b₀.toNat % 16))) with
          | error fault =>
            rw [hread] at h
            cases h
            rfl
          | ok pair =>
            rw [hread] at h
            cases h
        have hsources : (tail.take (4 * (b₀.toNat % 16))).length = 4 * (b₀.toNat % 16) := by
          rw [List.length_take]
          omega
        have hoverruns := Overruns.block b₀ [b₁, s₁, s₀, t₃, t₂, t₁, t₀, r₃, r₂, r₁, r₀] _ _ rfl hsources
          (by simpa using hflag) (Block.read_eq_overrun_iff.1 hblock)
        rw [List.take_append_drop] at hoverruns
        exact hoverruns
      · cases h
    · cases h
  · rintro ⟨first, fixed, sources, block, hfixed, hsources, hflag, hblock⟩
    -- the reader takes the fixed bytes one by one
    match fixed, hfixed with
    | [b₁, s₁, s₀, t₃, t₂, t₁, t₀, r₃, r₂, r₁, r₀], _ =>
      simp only [List.cons_append, List.nil_append, read, ← hsources, hflag]
      rw [if_neg (by rw [List.length_append]; omega), List.drop_left,
        Block.read_eq_overrun_iff.2 hblock]
      rfl

namespace Packet

theorem unpad_ne_overrun (bytes : Bytes) : unpad bytes ≠ .error .overrun := by
  unfold unpad
  intro h
  split at h
  · cases h
  · split at h <;> cases h

/-- **When reading a packet overruns.** -/
theorem decode_eq_overrun_iff {bytes : Bytes} :
    decode bytes = .error .overrun ↔ Overruns bytes := by
  rw [← Header.read_eq_overrun_iff, decode]
  cases hread : Header.read bytes with
  | error fault => simp
  | ok pair =>
    obtain ⟨header, rest⟩ := pair
    have hno := unpad_ne_overrun rest
    refine iff_of_false (fun h => ?_) (fun h => by cases h)
    dsimp only at h
    split at h
    · cases hpad : unpad rest with
      | error fault =>
        rw [hpad] at h hno
        cases h
        exact hno rfl
      | ok payload =>
        rw [hpad] at h
        cases h
    · cases h

end Packet

end NoiseFilter.Rtp
