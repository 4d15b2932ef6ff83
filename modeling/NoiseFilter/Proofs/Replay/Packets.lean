import NoiseFilter.Proofs.Stream.Flow
import NoiseFilter.Replay.Packetizer

/-!
# The packets of a recording

A packetizer cuts its audio into payloads, `Packetizer.payloads`: joined up they are the audio, all but
the last are as long as configured, and there are as many as that takes. A read of a buffer with room for
it takes the next of them (`Packetizer.read_of_fits`), and the packet that is in the buffer then is one
with that payload (`Packetizer.decode_packet`).

The header that is read is not quite the one that was meant. A payload type of more than seven bits
reaches into the place of the marker, and the two bytes that fill the extension block are read as padding.
So it is `Packetizer.sentHeader`, rewritten.
-/

namespace NoiseFilter

open Rtp

namespace Packetizer

/-! ### Payloads -/

/-- **The payloads of all packets to come.** -/
def payloads (p : Packetizer) : List Bytes :=
  if _h : p.remaining = [] then [] else p.payload :: p.advance.payloads
termination_by p.remaining.length
decreasing_by exact p.remaining_advance_lt _h

theorem payloads_of_nil {p : Packetizer} (h : p.remaining = []) : p.payloads = [] := by
  rw [payloads, dif_pos h]

theorem payloads_of_ne_nil {p : Packetizer} (h : p.remaining ≠ []) :
    p.payloads = p.payload :: p.advance.payloads := by
  rw [payloads, dif_neg h]

/-- **The payloads are the audio**, cut. -/
theorem flatten_payloads (p : Packetizer) : p.payloads.flatten = p.remaining := by
  induction p using payloads.induct with
  | case1 p h =>
    rw [payloads_of_nil h, h]
    rfl
  | case2 p h ih =>
    rw [payloads_of_ne_nil h, List.flatten_cons, ih]
    exact List.take_append_drop _ _

/-- **There are as many payloads as it takes**: the bytes by those of a packet, rounded up. -/
theorem length_payloads (p : Packetizer) :
    p.payloads.length = (p.remaining.length + p.payloadBytes - 1) / p.payloadBytes := by
  induction p using payloads.induct with
  | case1 p h =>
    have hpos := p.payloadBytes_pos
    rw [payloads_of_nil h, h, List.length_nil, List.length_nil, Nat.div_eq_of_lt (by omega)]
  | case2 p h ih =>
    have hpos := p.payloadBytes_pos
    have hsome := List.length_pos_iff.2 h
    have hadvance : p.advance.remaining.length = p.remaining.length - p.payloadBytes :=
      List.length_drop
    have hceil : (p.remaining.length + p.payloadBytes - 1) / p.payloadBytes =
        (p.remaining.length - 1) / p.payloadBytes + 1 := by
      rw [← Nat.add_div_right _ hpos]
      congr 1
      omega
    rw [payloads_of_ne_nil h, List.length_cons, ih, hceil, hadvance]
    change (_ + p.payloadBytes - 1) / p.payloadBytes + 1 = _
    congr 1
    -- either a whole packet was taken off, or all that there was
    rcases Nat.lt_or_ge p.payloadBytes p.remaining.length with hlong | hshort
    · congr 1
      omega
    · rw [Nat.div_eq_of_lt (by omega), Nat.div_eq_of_lt (by omega)]

/-- No payload is longer than configured. -/
theorem length_le_of_mem_payloads (p : Packetizer) :
    ∀ payload ∈ p.payloads, payload.length ≤ p.payloadBytes := by
  induction p using payloads.induct with
  | case1 p h =>
    rw [payloads_of_nil h]
    exact fun payload hmem => absurd hmem List.not_mem_nil
  | case2 p h ih =>
    rw [payloads_of_ne_nil h]
    exact List.forall_mem_cons.2 ⟨List.length_take_le _ _, ih⟩

/-- **All payloads but the last are as long as configured.** -/
theorem length_of_mem_dropLast_payloads (p : Packetizer) :
    ∀ payload ∈ p.payloads.dropLast, payload.length = p.payloadBytes := by
  induction p using payloads.induct with
  | case1 p h =>
    rw [payloads_of_nil h]
    exact fun payload hmem => absurd hmem List.not_mem_nil
  | case2 p h ih =>
    rw [payloads_of_ne_nil h]
    by_cases hlast : p.advance.remaining = []
    · rw [payloads_of_nil hlast]
      exact fun payload hmem => absurd hmem List.not_mem_nil
    · rw [payloads_of_ne_nil hlast] at ih ⊢
      rw [List.dropLast_cons_cons]
      refine List.forall_mem_cons.2 ⟨?_, ih⟩
      have hmore := List.length_pos_iff.2 hlast
      have hadvance : p.advance.remaining.length = p.remaining.length - p.payloadBytes :=
        List.length_drop
      rw [payload, List.length_take]
      omega

/-! ### Packets -/

/-- The extension block of a packet: the level of its payload. -/
def levelBlock (p : Packetizer) : Block :=
  ⟨oneByteProfile, [⟨audioLevelId, [UInt8.ofNat (Level.ofPayload p.payload)]⟩], 0⟩

theorem form_levelBlock (p : Packetizer) : p.levelBlock.form = .oneByte := by
  rw [Block.form, levelBlock, ElementForm.ofProfile, if_pos rfl]

theorem elementBytes_levelBlock (p : Packetizer) : p.levelBlock.elementBytes = 2 := by
  change p.levelBlock.form.overhead + 1 + 0 = 2
  rw [form_levelBlock]
  rfl

theorem wordCount_levelBlock (p : Packetizer) : p.levelBlock.wordCount = 1 := by
  rw [Block.wordCount, elementBytes_levelBlock]

theorem length_spell_levelBlock (p : Packetizer) : p.levelBlock.spell.length = 8 := by
  rw [Block.spell, wordCount_levelBlock, elementBytes_levelBlock, List.length_append,
    List.length_append, Block.length_spellElements, elementBytes_levelBlock]
  rfl

theorem wellFormed_levelBlock (p : Packetizer) : p.levelBlock.WellFormed := by
  refine ⟨fun e he => ?_, fun hwhole => ?_, ?_⟩
  · rw [List.mem_singleton.1 he, form_levelBlock]
    exact ⟨show (1 : UInt8).toNat < 15 by decide, Nat.zero_lt_one, Nat.succ_le_succ (Nat.zero_le _),
      fun hzero => absurd hzero (show (1 : UInt8) ≠ 0 by decide)⟩
  · rw [form_levelBlock] at hwhole
    cases hwhole
  · rw [elementBytes_levelBlock]
    decide

/-- **The header that is sent**: what is more than seven bits of the payload type is its marker. -/
def sentHeader (p : Packetizer) : Header :=
  { p.header with
    marker := p.payloadType.toNat / 128 == 1
    payloadType := p.payloadType % 128 }

/-- A byte is its last seven bits and its first one. -/
theorem secondByte_sentHeader (p : Packetizer) : p.sentHeader.secondByte = p.header.secondByte := by
  have hbyte := p.payloadType.toNat_lt
  have hlow : p.sentHeader.payloadType.toNat = p.payloadType.toNat % 128 := UInt8.toNat_mod _ _
  have hsent := Header.toNat_secondByte (h := p.sentHeader) (by rw [hlow]; omega)
  have hmeant : p.header.secondByte = p.payloadType := UInt8.or_zero
  refine UInt8.toNat_inj.1 ?_
  rw [hmeant, hsent, hlow]
  change flag (p.payloadType.toNat / 128 == 1) 128 + _ = _
  by_cases hhigh : p.payloadType.toNat / 128 = 1
  · rw [hhigh, beq_self_eq_true, flag, if_pos rfl]
    omega
  · rw [beq_false_of_ne hhigh, flag, if_neg Bool.false_ne_true]
    omega

/-- It is written as the one that is meant. -/
theorem spell_sentHeader (p : Packetizer) : p.sentHeader.spell = p.header.spell := by
  rw [Header.spell, secondByte_sentHeader]
  rfl

theorem length_spell_sentHeader (p : Packetizer) : p.sentHeader.spell.length = 20 := by
  have hblock : (p.sentHeader.extension.map Block.spell).getD [] = p.levelBlock.spell := rfl
  rw [Header.spell, hblock, List.length_append, length_spell_levelBlock]
  rfl

theorem size_sentHeader (p : Packetizer) : p.sentHeader.size = 20 := by
  change 12 + 0 + p.levelBlock.size = 20
  have hpadding : p.levelBlock.padding = 0 := rfl
  rw [Block.size, elementBytes_levelBlock, hpadding]

theorem wellFormed_sentHeader (p : Packetizer) : p.sentHeader.WellFormed := by
  refine ⟨?_, Nat.zero_lt_succ _, fun b hb => ?_⟩
  · change (p.payloadType % 128).toNat < 128
    rw [UInt8.toNat_mod]
    exact Nat.mod_lt _ (by decide)
  · obtain rfl : p.levelBlock = b := Option.some.inj hb
    exact p.wellFormed_levelBlock

/-- **The header of a packet, as it is read.** -/
def readHeader (p : Packetizer) : Header := p.sentHeader.rewritten

theorem size_readHeader (p : Packetizer) : p.readHeader.size = 20 := by
  change 12 + 0 + p.levelBlock.rewritten.size = 20
  have helements : p.levelBlock.rewritten.elementBytes = 2 := p.elementBytes_levelBlock
  have hpadding : p.levelBlock.rewritten.padding = 2 := by
    rw [Block.rewritten, wordCount_levelBlock, elementBytes_levelBlock]
  rw [Block.size, helements, hpadding]

theorem length_spell_readHeader (p : Packetizer) : p.readHeader.spell.length = p.readHeader.size := by
  rw [size_readHeader]
  exact p.length_spell_sentHeader

theorem wellFormed_readHeader (p : Packetizer) : p.readHeader.WellFormed := by
  have hread := Header.read_spell p.wellFormed_sentHeader []
  refine (Header.of_read hread).1 ?_
  rw [List.append_nil, length_spell_sentHeader]
  decide

theorem length_packet (p : Packetizer) : p.packet.length = 20 + p.payload.length := by
  rw [packet, List.length_append, ← spell_sentHeader, length_spell_sentHeader]

/-- A packet fits into a buffer that is twice as large as its payload may be, and 256 bytes more. -/
theorem packet_fits (p : Packetizer) {size : Nat} (h : p.payloadBytes * 2 + 256 ≤ size) :
    p.packet.length ≤ size := by
  have hpayload : p.payload.length ≤ p.payloadBytes := List.length_take_le _ _
  rw [length_packet]
  omega

/-- **A packet is read as one with its payload.** -/
theorem decode_packet (p : Packetizer) : Packet.decode p.packet = .ok ⟨p.readHeader, p.payload⟩ := by
  have hspell : Packet.spell ⟨p.sentHeader, p.payload⟩ = p.packet := by
    rw [Packet.spell, p.spell_sentHeader, packet]
    exact List.append_nil _
  have hencode : Packet.encode ⟨p.sentHeader, p.payload⟩ = .ok p.packet := by
    rw [← hspell]
    exact Packet.encode_eq_ok.2 (p.length_spell_sentHeader.trans p.size_sentHeader.symm)
  exact Packet.decode_of_encode p.wellFormed_sentHeader hencode

/-! ### Reads -/

variable {p : Packetizer} {attributes : Attributes} {buffer : Buffer}

theorem read_of_nil (h : p.remaining = []) :
    p.read attributes buffer = (.error .closed, buffer, p) := by
  rw [read, h]
  rfl

/-- **A read into a buffer with room** takes the next packet. -/
theorem read_of_fits (h : p.remaining ≠ []) (hfits : p.packet.length ≤ buffer.size) :
    p.read attributes buffer =
      (.ok ⟨p.packet.length, attributes⟩, buffer.overwrite p.packet, p.advance) := by
  have hempty : p.remaining.isEmpty = false := List.isEmpty_eq_false_iff.2 h
  rw [read, hempty, if_neg Bool.false_ne_true]
  exact if_neg (Nat.not_lt.2 hfits)

variable (p attributes) in
/-- **The next packet, as it arrives.** -/
def incoming (hfits : p.packet.length ≤ buffer.size) : Filter.Incoming where
  delivery := ⟨p.packet.length, attributes⟩
  buffer := buffer.overwrite p.packet
  packet := ⟨p.readHeader, p.payload⟩
  decoded := by
    rw [Buffer.packet?, Buffer.window?_overwrite hfits]
    simp only [p.decode_packet]
    rfl
  wellFormed := p.wellFormed_readHeader

end Packetizer

end NoiseFilter
