import NoiseFilter.Bytes.Words

/-!
# Header extensions

The extension block of a packet names a profile, which says how its elements are written:

| `ElementForm` | profile | before the bytes of an element |
|---|---|---|
| `oneByte` | `0xBEDE` | one byte: four bits of id, four bits of length less one |
| `twoByte` | `0x1000` | two bytes: id and length |
| `whole` | any other | nothing; the block is one element |

A zero byte between elements is padding, and the id 15 of the one-byte form ends the block early. An
element says its own length, so a malformed one may reach past its block into the payload, or past the
end of the packet: then reading **overruns**, and `ElementForm.readElements` has no answer.
-/

namespace NoiseFilter.Rtp

/-- One element of an extension block. -/
structure Element where
  id : UInt8
  payload : Bytes
deriving DecidableEq, Repr

/-- How the elements of a block are written. -/
inductive ElementForm
  | oneByte
  | twoByte
  | whole
deriving DecidableEq, Repr

/-- The profile of the one-byte form. -/
def oneByteProfile : UInt16 := 0xBEDE

/-- The profile of the two-byte form. -/
def twoByteProfile : UInt16 := 0x1000

/-- The id that ends a block of the one-byte form. -/
def reservedId : UInt8 := 15

namespace ElementForm

/-- The form that a profile stands for. -/
def ofProfile (profile : UInt16) : ElementForm :=
  if profile = oneByteProfile then .oneByte
  else if profile = twoByteProfile then .twoByte
  else .whole

/-- The bytes that stand before those of an element. -/
def overhead : ElementForm → Nat
  | .oneByte => 1
  | .twoByte => 2
  | .whole => 0

/-- **Writing** one element. -/
def spell (form : ElementForm) (e : Element) : Bytes :=
  match form with
  | .oneByte => UInt8.ofNat (e.id.toNat * 16 + (e.payload.length - 1)) :: e.payload
  | .twoByte => e.id :: UInt8.ofNat e.payload.length :: e.payload
  | .whole => e.payload

/-- What stands at the start of an element. -/
inductive Mark
  | padding
  | stop
  | element (id : UInt8) (size : Nat)
deriving DecidableEq, Repr

/-- The mark at the start of some bytes, and the bytes after it; nothing where the bytes end inside
it. -/
def mark? (form : ElementForm) : Bytes → Option (Mark × Bytes)
  | [] => none
  | b :: rest =>
    if b = 0 then some (.padding, rest)
    else match form, rest with
      | .oneByte, rest =>
        if b / 16 = reservedId then some (.stop, rest)
        else some (.element (b / 16) ((b % 16).toNat + 1), rest)
      | .twoByte, size :: rest => some (.element b size.toNat, rest)
      | .twoByte, [] => none
      | .whole, rest => some (.stop, rest)

/-- The elements of a block, the padding bytes among them, and the bytes after the block. -/
structure Elements where
  elements : List Element
  padding : Nat
  rest : Bytes
deriving DecidableEq, Repr

/-- **Reading** the elements of a block of which `left` bytes are left. There is no answer where an
element reaches past the end of the input. -/
def readElements (form : ElementForm) (left : Nat) (input : Bytes) : Option Elements :=
  if left = 0 then some ⟨[], 0, input⟩
  else match form.mark? input with
    | none => none
    | some (.stop, rest) => some ⟨[], 0, rest⟩
    | some (.padding, rest) =>
      (form.readElements (left - 1) rest).map fun r => { r with padding := r.padding + 1 }
    | some (.element id size, rest) =>
      let payload := rest.take size
      if payload.length < size then none
      else
        (form.readElements (left - max 1 (form.overhead + size)) (rest.drop size)).map fun r =>
          { r with elements := ⟨id, payload⟩ :: r.elements }
termination_by left

end ElementForm

/-- **An extension block**: its profile, its elements and the number of padding bytes that were read
among them. -/
structure Block where
  profile : UInt16
  elements : List Element
  padding : Nat
deriving DecidableEq, Repr

namespace Block

/-- How the elements of this block are written. -/
def form (b : Block) : ElementForm := .ofProfile b.profile

/-- The elements in order, as they are written. -/
def spellElements (b : Block) : Bytes := b.elements.flatMap b.form.spell

/-- The bytes that the elements take. -/
def elementBytes (b : Block) : Nat :=
  b.elements.foldr (fun e bytes => b.form.overhead + e.payload.length + bytes) 0

/-- **The announced size**: four bytes of profile and length, then elements and padding in whole
words. -/
def size (b : Block) : Nat := 4 + (b.elementBytes + b.padding + 3) / 4 * 4

/-- **The length field**: the elements in whole words. It is computed in words of 16 bits, from the
count of bytes on, so elements of 65533 bytes or more wrap round. -/
def wordCount (b : Block) : Nat := (b.elementBytes + 3) % 65536 / 4

/-- **Writing** a block. The padding read among the elements is not written; zeros fill the last
word. -/
def spell (b : Block) : Bytes :=
  Bytes.spell16 b.profile ++ Bytes.spell16 (UInt16.ofNat b.wordCount) ++ b.spellElements ++
    Bytes.zeros (4 * b.wordCount - b.elementBytes)

end Block

end NoiseFilter.Rtp
