import NoiseFilter.Rtp.Extension

/-!
# Packets

A packet is a header of at least twelve bytes, then the payload, then, if the header says so, padding
whose last byte counts it. `Packet.decode` reads a packet and `Packet.encode` writes it.

Reading fails in two ways that are kept apart, `Fault.malformed` for what is recognised as no packet
and `Fault.overrun` for an extension element that reaches past the end. Writing fails when what was
written is not what the packet announced, `SizeMismatch`: padding read among extension elements is
counted but not written again.
-/

namespace NoiseFilter.Rtp

/-- The header of a packet. The version is read and written but never checked. -/
structure Header where
  version : Fin 4
  padding : Bool
  extension : Option Block
  marker : Bool
  payloadType : UInt8
  sequence : UInt16
  timestamp : UInt32
  ssrc : UInt32
  sources : List UInt32
deriving DecidableEq, Repr

/-- A packet: its header, and the payload without padding. -/
structure Packet where
  header : Header
  payload : Bytes
deriving DecidableEq, Repr

/-! ### Writing -/

/-- One bit of a byte. -/
def flag (set : Bool) (weight : Nat) : Nat := if set then weight else 0

namespace Header

/-- The bytes of a header before its sources. -/
def fixedBytes : Nat := 12

/-- **The announced size** of a header. -/
def size (h : Header) : Nat :=
  fixedBytes + 4 * h.sources.length + (h.extension.map Block.size).getD 0

/-- The first byte: version, padding, extension, number of sources. -/
def firstByte (h : Header) : UInt8 :=
  UInt8.ofNat (h.version.val * 64 + flag h.padding 32 + flag h.extension.isSome 16 +
    h.sources.length % 16)

/-- The second byte: marker and payload type. A payload type of more than seven bits reaches into the
place of the marker. -/
def secondByte (h : Header) : UInt8 := h.payloadType ||| UInt8.ofNat (flag h.marker 128)

/-- **Writing** a header. -/
def spell (h : Header) : Bytes :=
  [h.firstByte, h.secondByte] ++ Bytes.spell16 h.sequence ++ Bytes.spell32 h.timestamp ++
    Bytes.spell32 h.ssrc ++ h.sources.flatMap Bytes.spell32 ++
    (h.extension.map Block.spell).getD []

end Header

/-- A packet that was not written in the size it announced. -/
structure SizeMismatch where
  written : Nat
  announced : Nat
deriving DecidableEq, Repr

/-- The message of a failed writing. -/
def SizeMismatch.message (e : SizeMismatch) : String :=
  "marshal_to output size " ++ toString e.written ++ ", but expect " ++ toString e.announced

namespace Packet

/-- The number of padding bytes: none, or as many as make the payload whole words, and never zero. -/
def paddingBytes (p : Packet) : Nat :=
  if p.header.padding then 4 - p.payload.length % 4 else 0

/-- **The announced size** of a packet. -/
def size (p : Packet) : Nat := p.header.size + p.payload.length + p.paddingBytes

/-- The padding: zeros, and their number with it as the last byte. -/
def spellPadding (p : Packet) : Bytes :=
  if p.header.padding then
    Bytes.zeros (p.paddingBytes - 1) ++ [UInt8.ofNat p.paddingBytes]
  else []

/-- The bytes of a packet, whether or not they have the announced size. -/
def spell (p : Packet) : Bytes := p.header.spell ++ p.payload ++ p.spellPadding

/-- **Writing** a packet: its bytes, if they have the announced size. -/
def encode (p : Packet) : Except SizeMismatch Bytes :=
  let bytes := p.spell
  if bytes.length = p.size then .ok bytes else .error ⟨bytes.length, p.size⟩

end Packet

/-! ### Reading -/

/-- What is wrong with bytes that are no packet. -/
inductive Malformation
  | shortHeader
  | shortExtension
  | badPadding
deriving DecidableEq, Repr

/-- The message for bytes that are no packet. -/
def Malformation.message : Malformation → String
  | .shortHeader => "RTP header size insufficient"
  | .shortExtension => "RTP header size insufficient for extension"
  | .badPadding => "packet is not large enough"

/-- Why reading a packet failed: the bytes were refused, or an extension element reached past
their end. -/
inductive Fault
  | malformed (what : Malformation)
  | overrun
deriving DecidableEq, Repr

namespace Block

/-- **Reading** a block, and the bytes after it. -/
def read : Bytes → Except Fault (Block × Bytes)
  | p₁ :: p₀ :: w₁ :: w₀ :: rest =>
    let profile := Bytes.word16 p₁ p₀
    let size := 4 * (Bytes.word16 w₁ w₀).toNat
    if rest.length < size then .error (.malformed .shortExtension)
    else match ElementForm.ofProfile profile with
      | .whole => .ok (⟨profile, [⟨0, rest.take size⟩], 0⟩, rest.drop size)
      | form => match form.readElements size rest with
        | none => .error .overrun
        | some r => .ok (⟨profile, r.elements, r.padding⟩, r.rest)
  | _ => .error (.malformed .shortExtension)

end Block

namespace Header

/-- **Reading** a header, and the bytes after it. -/
def read : Bytes → Except Fault (Header × Bytes)
  | b₀ :: b₁ :: s₁ :: s₀ :: t₃ :: t₂ :: t₁ :: t₀ :: r₃ :: r₂ :: r₁ :: r₀ :: rest =>
    let sourceBytes := 4 * (b₀.toNat % 16)
    if rest.length < sourceBytes then .error (.malformed .shortHeader)
    else
      let header (extension : Option Block) : Header :=
        { version := Fin.ofNat 4 (b₀.toNat / 64)
          padding := b₀.toNat / 32 % 2 == 1
          extension
          marker := b₁.toNat / 128 == 1
          payloadType := b₁ % 128
          sequence := Bytes.word16 s₁ s₀
          timestamp := Bytes.word32 t₃ t₂ t₁ t₀
          ssrc := Bytes.word32 r₃ r₂ r₁ r₀
          sources := Bytes.words32 (rest.take sourceBytes) }
      if b₀.toNat / 16 % 2 == 1 then
        (Block.read (rest.drop sourceBytes)).map fun (block, rest) => (header (some block), rest)
      else .ok (header none, rest.drop sourceBytes)
  | _ => .error (.malformed .shortHeader)

end Header

/-- A payload without the padding that its last byte counts. -/
def unpad (bytes : Bytes) : Except Fault Bytes :=
  match bytes.getLast? with
  | none => .error (.malformed .badPadding)
  | some count =>
    if bytes.length < count.toNat then .error (.malformed .badPadding)
    else .ok (bytes.take (bytes.length - count.toNat))

/-- **Reading** a packet. -/
def Packet.decode (bytes : Bytes) : Except Fault Packet :=
  match Header.read bytes with
  | .error fault => .error fault
  | .ok (header, rest) =>
    if header.padding then (unpad rest).map fun payload => ⟨header, payload⟩
    else .ok ⟨header, rest⟩

end NoiseFilter.Rtp
