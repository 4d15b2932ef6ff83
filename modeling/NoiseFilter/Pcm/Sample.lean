import NoiseFilter.Bytes.Words
import NoiseFilter.Binary.Value

/-!
# Samples

On the wire a sample is a whole number of 16 bits with a sign, its low byte first. Between the wire
and an engine it is a floating point value in which full scale is one:

* `Sample.value` – a wire sample over 32768, which is exact;
* `Sample.quantize` – the whole number nearest to a value times 32768, a half **away from zero**,
  clamped to the range of the wire and zero for what is not a number.

Scaling by a power of two is exact in the format and is not rounded separately.
-/

namespace NoiseFilter.Sample

open Binary

/-- Full scale on the wire. -/
def scale : Nat := 32768

/-! ### Wire form -/

/-- The two bytes of a sample, low byte first; a negative sample is its complement. -/
def wire (sample : Int) : Bytes :=
  let word := (sample % 65536).toNat
  [UInt8.ofNat word, UInt8.ofNat (word / 256)]

/-- The sample of two bytes, low byte first. -/
def ofWire (low high : UInt8) : Int :=
  let word := high.toNat * 256 + low.toNat
  if word < scale then word else (word : Int) - 65536

/-! ### Values -/

/-- The value of a wire sample, full scale being one. -/
def value (sample : Int) : Single := .ofRatio (decide (sample < 0)) sample.natAbs scale

/-- The sample of a sign and a size, clamped to the range of the wire, which has one more negative
sample than positive ones. -/
def clamp (negative : Bool) (size : Nat) : Int :=
  if negative then -(min size scale : Nat) else (min size (scale - 1) : Nat)

/-- **Quantization**: the wire sample nearest to a value. -/
def quantize : Single → Int
  | .nan => 0
  | .signed negative magnitude =>
    clamp negative
      (Rounding.halfUp (Format.single.quanta magnitude * scale) Format.single.unit)

theorem clamp_mem (negative : Bool) (size : Nat) :
    -32768 ≤ clamp negative size ∧ clamp negative size ≤ 32767 := by
  cases negative <;> simp only [clamp, scale] <;> grind

/-- Every quantized value is a sample of the wire. -/
theorem quantize_mem (x : Single) : -32768 ≤ quantize x ∧ quantize x ≤ 32767 := by
  cases x with
  | nan => exact ⟨by decide, by decide⟩
  | signed negative magnitude => exact clamp_mem negative _

@[simp] theorem length_wire (sample : Int) : (wire sample).length = 2 := rfl

/-- Two bytes are the wire form of their sample. -/
theorem wire_ofWire (low high : UInt8) : wire (ofWire low high) = [low, high] := by
  have hl := low.toNat_lt
  have hh := high.toNat_lt
  have hw : (ofWire low high % 65536).toNat = high.toNat * 256 + low.toNat := by
    by_cases h : high.toNat * 256 + low.toNat < 32768 <;> simp only [ofWire, scale, h] <;> grind
  simp only [wire, hw, List.cons.injEq, and_true]
  refine ⟨?_, ?_⟩ <;> apply UInt8.toNat_inj.1 <;> simp only [UInt8.toNat_ofNat'] <;> omega

/-! ### Byte strings of samples -/

/-- The samples of a byte string after those of `done`, latest first. -/
def readOnto (done : List Int) : Bytes → List Int
  | low :: high :: rest => readOnto (ofWire low high :: done) rest
  | _ => done.reverse

/-- The samples of a byte string; an odd byte at the end is no sample. -/
def read (bytes : Bytes) : List Int := readOnto [] bytes

/-- The wire form of a run of samples. -/
def spell (samples : List Int) : Bytes := samples.flatMap wire

theorem readOnto_eq : ∀ (bytes : Bytes) (done : List Int),
    readOnto done bytes = done.reverse ++ read bytes
  | [], done => by simp [readOnto, read]
  | [_], done => by simp [readOnto, read]
  | low :: high :: rest, done => by
    rw [read, readOnto, readOnto_eq rest, readOnto, readOnto_eq rest [ofWire low high]]
    simp

@[simp] theorem read_nil : read [] = [] := rfl

@[simp] theorem read_singleton (b : UInt8) : read [b] = [] := rfl

@[simp] theorem read_cons_cons (low high : UInt8) (rest : Bytes) :
    read (low :: high :: rest) = ofWire low high :: read rest := by
  rw [read, readOnto, readOnto_eq]
  rfl

theorem length_read : ∀ bytes : Bytes, (read bytes).length = bytes.length / 2
  | [] => rfl
  | [_] => by simp
  | low :: high :: rest => by
    rw [read_cons_cons, List.length_cons, length_read rest, List.length_cons, List.length_cons]
    omega

theorem length_spell (samples : List Int) : (spell samples).length = 2 * samples.length := by
  induction samples with
  | nil => rfl
  | cons s rest ih => simp only [spell, List.flatMap_cons, List.length_append, length_wire,
      List.length_cons] at ih ⊢; omega

/-- An even byte string is the wire form of its samples. -/
theorem spell_read : ∀ bytes : Bytes, bytes.length % 2 = 0 → spell (read bytes) = bytes
  | [], _ => rfl
  | [_], h => by simp at h
  | low :: high :: rest, h => by
    have even : rest.length % 2 = 0 := by simp only [List.length_cons] at h; omega
    have ih := spell_read rest even
    rw [spell] at ih
    rw [read_cons_cons, spell, List.flatMap_cons, wire_ofWire, ih]
    rfl

end NoiseFilter.Sample
