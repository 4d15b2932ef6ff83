import NoiseFilter.Proofs.Rtp.Orderly
import NoiseFilter.Proofs.Stream.Flow

/-!
# Packets processed in their place

Where no incomplete frame waits, a processed packet is as long as the packet that arrived, if its header
comes back in the size in which it was read. So an ordinary packet always fits the buffer in which it
arrived, and there is nothing to fall back from: every one of them is processed, and none is passed on
raw because of how its header is laid out.

`Ordinary` says what is asked of the packet. Its header may have any number of sources and a block of any
profile, but the block has to be in order, with less than a word of padding
(`NoiseFilter.Rtp.Header.Orderly`). If the padding stands behind the elements the packet is processed
**in place**: the only bytes of the buffer that may change are those of the frames in its payload.
-/

namespace NoiseFilter

open Rtp

variable {pool engine : Type}

/-- Without padding a packet is the bytes of its header and its payload. -/
theorem Rtp.Packet.spell_of_unpadded {header : Header} (payload : Bytes) (h : header.padding = false) :
    spell ⟨header, payload⟩ = header.spell ++ payload := by
  rw [spell, spellPadding]
  dsimp only
  rw [h, if_neg Bool.false_ne_true, List.append_nil]

/-- **An ordinary packet** at the start of a buffer. `front` are the bytes of its header, which is in order
with a block of the wanted shape; there is no padding behind the payload, and the payload has a frame or
more. -/
structure Ordinary (shape : List Item → Prop) (buffer : Buffer) (length : Nat) (front : Bytes)
    (packet : Packet) : Prop where
  small : length ≤ 65535
  decoded : buffer.packet? length = some packet
  unpadded : packet.header.padding = false
  long : frameBytes ≤ packet.payload.length
  starts : front <+: buffer.toBytes.take length
  orderly : Header.Orderly shape front

namespace Ordinary

variable {shape : List Item → Prop} {buffer : Buffer} {length : Nat} {front : Bytes} {packet : Packet}

/-- **An ordinary packet is its header and its payload.** -/
theorem bytes_eq (h : Ordinary shape buffer length front packet) :
    buffer.toBytes.take length = front ++ packet.payload ∧
      Header.read (front ++ packet.payload) = .ok (packet.header, packet.payload) := by
  obtain ⟨-, hdecode⟩ := Buffer.packet?_eq_some.1 h.decoded
  obtain ⟨rest, hbytes⟩ := h.starts
  obtain ⟨header, hread, -⟩ := h.orderly.read
  have hunpadded := h.unpadded
  rw [← hbytes, Packet.decode, hread rest] at hdecode
  dsimp only at hdecode
  split at hdecode
  · -- then the header would say that there is padding
    next hpadded =>
    cases hunpad : unpad rest with
    | error fault =>
      rw [hunpad] at hdecode
      cases hdecode
    | ok payload =>
      rw [hunpad] at hdecode
      cases hdecode
      rw [hpadded] at hunpadded
      cases hunpadded
  · cases hdecode
    exact ⟨hbytes.symm, hread rest⟩

theorem length_eq (h : Ordinary shape buffer length front packet) :
    front.length + packet.payload.length = length := by
  have hlen := congrArg List.length h.bytes_eq.1
  rw [List.length_take, Buffer.length_toBytes, List.length_append,
    Nat.min_eq_left (Buffer.le_size_of_packet? h.decoded)] at hlen
  exact hlen.symm

/-- **Its header is announced and written** in the size in which it arrived. -/
theorem size_eq (h : Ordinary shape buffer length front packet)
    (hshape : ∀ items, shape items → Item.Tight items) :
    packet.header.size = front.length ∧ packet.header.spell.length = front.length := by
  have hsmall := h.small
  have hlen := h.length_eq
  exact (h.orderly.size_eq hshape (by omega) h.bytes_eq.2).2

/-- **With all padding behind the elements** its header is written as it arrived. -/
theorem spell_eq (h : Ordinary shape buffer length front packet)
    (htrailing : Header.Orderly Item.Trailing front) : packet.header.spell = front := by
  have hsmall := h.small
  have hlen := h.length_eq
  exact htrailing.spell_eq (by omega) h.bytes_eq.2

end Ordinary

namespace Filter

/-- **What a read does with an ordinary packet**, where no incomplete frame waits: the processed packet
takes the place of the one that arrived, and the read is counted as one that suppressed. -/
structure Suppresses (k : Backend pool engine) (f : Filter engine) (e : engine) (buffer : Buffer)
    (d : Delivery) (packet : Packet) (r : Reading) (g : Filter engine) : Prop where
  outcome : r.outcome = .delivered d
  buffer : r.buffer =
    buffer.overwrite (packet.header.spell ++ k.clean f.settings.threshold e packet.payload)
  suppressed : g.counters.packetsSuppressed = f.counters.packetsSuppressed + 1
  passed : g.counters.packetsPassed = f.counters.packetsPassed
  fallbacks : g.counters.fallbacks = f.counters.fallbacks

section Exits

variable {k : Backend pool engine} {p : pool} {f g : Filter engine} {buffer : Buffer} {d : Delivery}
  {r : Reading} {e : engine} {front : Bytes} {packet : Packet}

/-- **An ordinary packet leaves by the exit `suppressed`.** -/
theorem Exit.suppresses (h : f.Exit k p buffer (.ok d) r g) (hf : f.Coherent)
    (hcarry : f.settings.carryRemainder = false) (hstage : f.stage = .active e)
    (hpacket : Ordinary Item.Tight buffer d.length front packet) :
    f.Suppresses k e buffer d packet r g := by
  have hstarted := started_of_active k p hstage
  obtain ⟨hsize, hspell⟩ := hpacket.size_eq fun _ => id
  have hlen := hpacket.length_eq
  have hfits := Buffer.le_size_of_packet? hpacket.decoded
  have hclean := f.suppress_eq_clean k e packet.payload hcarry (hf.flushed hcarry)
  have hcleaned := (k.length_clean f.settings.threshold e packet.payload).1
  have htakes := takes_of_long (by rw [hstarted, hstage]) hpacket.decoded hpacket.long
  rcases h.of_takes htakes with ⟨data, hdata, -, houtcome, hbuffer, rfl⟩ | ⟨hunfit, -⟩
  · obtain ⟨hdata, hwritten⟩ := Packet.of_encode hdata
    obtain ⟨hsuppressed, hpassed, hfallbacks⟩ :=
      Analysis.packets_tally (f.suppress k e packet.payload).analyses f.counters
    rw [hstarted, hclean] at hdata hwritten
    rw [Packet.size_of_unpadded _ hpacket.unpadded] at hwritten
    rw [Packet.spell_of_unpadded _ hpacket.unpadded] at hdata
    have hsame : data.length = d.length := by omega
    rw [hsame] at houtcome
    rw [hdata] at hbuffer
    rw [hstarted]
    exact ⟨houtcome, hbuffer, congrArg (· + 1) hsuppressed, hpassed, hfallbacks⟩
  · -- the processed packet is as long as the one that arrived, and so it fits
    exfalso
    rw [hstarted, hclean] at hunfit
    have hlarge := unfit_iff.1 hunfit (hspell.trans hsize.symm)
    rw [Packet.size_of_unpadded _ hpacket.unpadded] at hlarge
    omega

/-- **In place**: nothing changes but the frames of the payload. -/
theorem Suppresses.in_place (h : f.Suppresses k e buffer d packet r g)
    (hpacket : Ordinary Item.Tight buffer d.length front packet)
    (htrailing : Header.Orderly Item.Trailing front) :
    r.buffer.toBytes.take front.length = buffer.toBytes.take front.length ∧
      r.buffer.toBytes.drop (d.length - packet.payload.length % frameBytes) =
        buffer.toBytes.drop (d.length - packet.payload.length % frameBytes) := by
  obtain ⟨hcleaned, hrest⟩ := k.length_clean f.settings.threshold e packet.payload
  have hspell := hpacket.spell_eq htrailing
  have hlen := hpacket.length_eq
  obtain ⟨clean, hclean⟩ : ∃ clean, k.clean f.settings.threshold e packet.payload = clean := ⟨_, rfl⟩
  obtain ⟨after, hafter⟩ : ∃ after, buffer.toBytes.drop d.length = after := ⟨_, rfl⟩
  rw [hclean] at hcleaned hrest
  -- what arrived and what is there now: the same header, payloads of one length, the same end
  have hbefore : buffer.toBytes = front ++ (packet.payload ++ after) := by
    rw [← hafter, ← List.append_assoc, ← hpacket.bytes_eq.1, List.take_append_drop]
  have hnow : r.buffer.toBytes = front ++ (clean ++ after) := by
    have hwritten : (front ++ clean).length = d.length := by
      rw [List.length_append]
      omega
    rw [h.buffer, Buffer.toBytes_overwrite, hspell, hclean, hwritten, hafter, List.append_assoc]
  have hframes : d.length - packet.payload.length % frameBytes = front.length +
      (packet.payload.length - packet.payload.length % frameBytes) := by
    have hle := Nat.mod_le packet.payload.length frameBytes
    omega
  rw [hnow, hbefore, hframes, List.take_left, List.take_left, ← List.drop_drop, ← List.drop_drop,
    List.drop_left, List.drop_left, List.drop_append_of_le_length (by omega),
    List.drop_append_of_le_length (by omega), hrest]
  exact ⟨rfl, rfl⟩

end Exits

/-- **Ordinary packets are processed, and in place.** Where no incomplete frame waits, a filter with an
engine processes every ordinary packet: the read returns as many bytes as arrived, counts the packet as
suppressed and does not fall back. If the padding of the block stands behind its elements, the bytes in
front of the payload are those that arrived, and so are all bytes behind its last frame. -/
theorem read_suppresses_ordinary (k : Backend pool engine) (p : pool) (ssrc : UInt32)
    {settings : Settings} (hcarry : settings.carryRemainder = false) {actions : List Action}
    {turns : List (Turn engine)} {f : Filter engine} {q : pool}
    (hrun : (new ssrc settings).run k p actions = (turns, f, q)) {e : engine}
    (hstage : f.stage = .active e) {d : Delivery} {buffer : Buffer} {front : Bytes} {packet : Packet}
    (hpacket : Ordinary Item.Tight buffer d.length front packet) :
    f.Suppresses k e buffer d packet (f.read k q (.ok d) buffer).1 (f.read k q (.ok d) buffer).2.1 ∧
      d.length = front.length + packet.payload.length ∧
      (Header.Orderly Item.Trailing front →
        (f.read k q (.ok d) buffer).1.buffer.toBytes.take front.length =
            buffer.toBytes.take front.length ∧
          (f.read k q (.ok d) buffer).1.buffer.toBytes.drop
              (d.length - packet.payload.length % frameBytes) =
            buffer.toBytes.drop (d.length - packet.payload.length % frameBytes)) := by
  obtain ⟨hf, hsettings⟩ := coherent_of_run hrun
  have hread := (f.exit_read k q (.ok d) buffer).suppresses hf (by rw [hsettings, hcarry]) hstage hpacket
  exact ⟨hread, hpacket.length_eq.symm, hread.in_place hpacket⟩

/-- The bytes of a header with a block of one word: an element of one byte, and two bytes of padding. -/
def wordFront : Bytes :=
  [0x90, 0x6F, 0, 1, 0, 0, 0xBB, 0x80, 0, 0, 0x30, 0x39, 0xBE, 0xDE, 0, 1, 0x10, 0x55, 0, 0]

theorem orderly_wordFront : Header.Orderly Item.Trailing wordFront := by
  refine .extended 0x90 [0x6F, 0, 1, 0, 0, 0xBB, 0x80, 0, 0, 0x30, 0x39] []
    [0xBE, 0xDE, 0, 1, 0x10, 0x55, 0, 0] rfl rfl rfl ?_
  refine .items oneByteProfile 1 (Item.trailing [⟨1, [0x55]⟩] 2) (by decide) ?_ rfl
    ⟨_, 2, by decide, rfl⟩
  intro i hi
  rcases List.mem_cons.1 hi with rfl | hi
  · exact show (1 : UInt8).toNat < 15 ∧ 0 < 1 ∧ 1 ≤ 16 ∧ ((1 : UInt8) = 0 → 1 < 1) by decide
  · rw [(List.mem_replicate.1 hi).2]
    trivial

/-- A packet with such a header and one frame of silence. -/
def wordPacket : Packet :=
  ⟨{ Incoming.plainHeader 1 with extension := some ⟨oneByteProfile, [⟨1, [0x55]⟩], 2⟩ },
    List.replicate 960 0⟩

/-- The delivery of that packet. -/
def wordDelivery : Delivery := ⟨980, []⟩

/-- The buffer with that packet, and nothing after it. -/
def wordBuffer : Buffer := ⟨wordFront ++ List.replicate 960 0, 0⟩

theorem ordinary_wordPacket :
    Ordinary Item.Tight wordBuffer wordDelivery.length wordFront wordPacket where
  small := by decide
  decoded := by decide +kernel
  unpadded := rfl
  long := Nat.le_of_eq List.length_replicate.symm
  starts := by
    rw [List.prefix_take_iff]
    exact ⟨⟨List.replicate 960 0, (List.append_nil _).symm⟩, by decide⟩
  orderly := orderly_wordFront.mono fun _ => Item.tight_of_trailing

/-- A filter that nothing has reached but an empty packet: there is an engine now. -/
def begun : Filter Nat :=
  ⟨12345, .default, .active 0, .empty, Counters.zero.packetPassed⟩

theorem run_begun : ∃ turns, (new 12345 .default).run (Script.backend ⟨[], []⟩) 0
    [.read (.ok ⟨0, []⟩) (Buffer.blank 0)] = (turns, begun, 1) := ⟨_, rfl⟩

/-- The next packet is processed in place. -/
theorem suppresses_of_wordPacket :
    begun.Suppresses (Script.backend ⟨[], []⟩) 0 wordBuffer wordDelivery wordPacket
        (begun.read (Script.backend ⟨[], []⟩) 1 (.ok wordDelivery) wordBuffer).1
        (begun.read (Script.backend ⟨[], []⟩) 1 (.ok wordDelivery) wordBuffer).2.1 ∧
      (begun.read (Script.backend ⟨[], []⟩) 1 (.ok wordDelivery) wordBuffer).1.buffer.toBytes.take
        wordFront.length = wordBuffer.toBytes.take wordFront.length := by
  obtain ⟨turns, hrun⟩ := run_begun
  have hcarry : Settings.default.carryRemainder = false := rfl
  have hstage : begun.stage = .active 0 := rfl
  obtain ⟨hread, -, hplace⟩ :=
    read_suppresses_ordinary _ 0 12345 hcarry hrun hstage ordinary_wordPacket
  exact ⟨hread, (hplace orderly_wordFront).1⟩

end Filter

end NoiseFilter
