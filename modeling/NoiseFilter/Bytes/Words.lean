/-!
# Bytes and the words made of them

A byte string is a list of bytes, so that cutting and joining are the list operations and their laws.
Words are spelled with their most significant byte first (`word16`, `spell16`, …), the order of packet
headers. Reading is inverse to spelling in both directions.
-/

namespace NoiseFilter

/-- A byte string. -/
abbrev Bytes := List UInt8

namespace Bytes

/-- A byte string of zeros. -/
def zeros (count : Nat) : Bytes := List.replicate count 0

/-! ### Words, most significant byte first -/

/-- The word of two bytes. -/
def word16 (a b : UInt8) : UInt16 := UInt16.ofNat (a.toNat * 256 + b.toNat)

/-- The two bytes of a word. -/
def spell16 (w : UInt16) : Bytes := [UInt8.ofNat (w.toNat / 256), UInt8.ofNat w.toNat]

/-- The word of four bytes. -/
def word32 (a b c d : UInt8) : UInt32 :=
  UInt32.ofNat (((a.toNat * 256 + b.toNat) * 256 + c.toNat) * 256 + d.toNat)

/-- The four bytes of a word. -/
def spell32 (w : UInt32) : Bytes :=
  [UInt8.ofNat (w.toNat / 16777216), UInt8.ofNat (w.toNat / 65536), UInt8.ofNat (w.toNat / 256),
    UInt8.ofNat w.toNat]

/-- The words of a byte string, four bytes each; fewer than four bytes at the end are no word. -/
def words32 : Bytes → List UInt32
  | a :: b :: c :: d :: rest => word32 a b c d :: words32 rest
  | _ => []

/-! ### Spelling and reading -/

@[simp] theorem length_spell16 (w : UInt16) : (spell16 w).length = 2 := rfl

@[simp] theorem length_spell32 (w : UInt32) : (spell32 w).length = 4 := rfl

@[simp] theorem length_zeros (count : Nat) : (zeros count).length = count := List.length_replicate ..

/-- Two bytes are the spelling of their word. -/
theorem spell16_word16 (a b : UInt8) : spell16 (word16 a b) = [a, b] := by
  have ha := a.toNat_lt
  have hb := b.toNat_lt
  simp only [spell16, word16, UInt16.toNat_ofNat', List.cons.injEq, and_true]
  refine ⟨?_, ?_⟩ <;> apply UInt8.toNat_inj.1 <;> simp only [UInt8.toNat_ofNat'] <;> omega

/-- A word is read back from its spelling. -/
theorem word16_spell16 (w : UInt16) :
    word16 (UInt8.ofNat (w.toNat / 256)) (UInt8.ofNat w.toNat) = w := by
  have hw := w.toNat_lt
  apply UInt16.toNat_inj.1
  simp only [word16, UInt16.toNat_ofNat', UInt8.toNat_ofNat']
  omega

/-- Four bytes are the spelling of their word. -/
theorem spell32_word32 (a b c d : UInt8) : spell32 (word32 a b c d) = [a, b, c, d] := by
  have ha := a.toNat_lt
  have hb := b.toNat_lt
  have hc := c.toNat_lt
  have hd := d.toNat_lt
  simp only [spell32, word32, UInt32.toNat_ofNat', List.cons.injEq, and_true]
  refine ⟨?_, ?_, ?_, ?_⟩ <;> apply UInt8.toNat_inj.1 <;> simp only [UInt8.toNat_ofNat'] <;> omega

/-- A word is read back from its spelling. -/
theorem word32_spell32 (w : UInt32) :
    word32 (UInt8.ofNat (w.toNat / 16777216)) (UInt8.ofNat (w.toNat / 65536))
      (UInt8.ofNat (w.toNat / 256)) (UInt8.ofNat w.toNat) = w := by
  have hw := w.toNat_lt
  apply UInt32.toNat_inj.1
  simp only [word32, UInt32.toNat_ofNat', UInt8.toNat_ofNat']
  omega

end Bytes

end NoiseFilter
