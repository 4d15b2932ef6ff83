import NoiseFilter.Engine.Script
import NoiseFilter.Proofs.Stream.Exits

/-!
# Headers go through unchanged

A filter works on payloads and never on headers. Whatever it does with a packet, what it hands on is a
packet again, and the header of that packet says what the header said that arrived
(`Filter.read_preserves_header`).

For the exits that leave the buffer alone there is nothing to prove. The other two, `suppressed` and
`released`, write the packet anew, and what is read back is a packet of the same header because

* the header was read, and so can be read again once it is written (`Rtp.Packet.of_decode`);
* the writer has compared the size of what it wrote with the size it announced, so that a header it
  cannot spell never reaches the buffer (`Rtp.Packet.decode_of_encode`).
-/

namespace NoiseFilter

open Rtp

/-- Counting frames counts no packets. -/
theorem Analysis.packets_tally (analyses : List Analysis) (c : Counters) :
    (tally analyses c).packetsSuppressed = c.packetsSuppressed ∧
      (tally analyses c).packetsPassed = c.packetsPassed ∧
      (tally analyses c).fallbacks = c.fallbacks := by
  induction analyses generalizing c with
  | nil => exact ⟨rfl, rfl, rfl⟩
  | cons a analyses ih =>
    obtain ⟨hsuppressed, hpassed, hfallbacks⟩ := ih (a.count c)
    have hcount : (a.count c).packetsSuppressed = c.packetsSuppressed ∧
        (a.count c).packetsPassed = c.packetsPassed ∧ (a.count c).fallbacks = c.fallbacks := by
      rw [count]
      rcases a.answer with why | ⟨_, _, _ | _⟩ <;> exact ⟨rfl, rfl, rfl⟩
    rw [tally, List.foldl_cons]
    exact ⟨hsuppressed.trans hcount.1, hpassed.trans hcount.2.1, hfallbacks.trans hcount.2.2⟩

namespace Filter

variable {pool engine : Type}

/-- A payload that is put to the engine is not counted as suppressed yet. -/
theorem suppressed_analysed (k : Backend pool engine) (p : pool) (f : Filter engine) (e : engine)
    (payload : Bytes) :
    ((f.started k p).analysed k e payload).counters.packetsSuppressed =
      f.counters.packetsSuppressed := by
  rw [analysed]
  exact (Analysis.packets_tally _ _).1.trans (by rw [started_counters])

/-- **A packet goes on with its header**: there is a packet in the buffer afterwards, and its header
agrees with that of `packet`. -/
def GoesOn (packet : Packet) (r : Reading) (what : Packet) : Prop :=
  ∃ d, r.outcome = .delivered d ∧ r.buffer.packet? d.length = some what ∧
    what.header.Agrees packet.header

/-- **Every exit hands a packet on with its header**, and the exit that counts it as suppressed hands on
the payload that came from the engine. -/
theorem Exit.goesOn {k : Backend pool engine} {p : pool} {f g : Filter engine} {buffer : Buffer}
    {d : Delivery} {r : Reading} {packet : Packet} (h : f.Exit k p buffer (.ok d) r g)
    (hsmall : d.length ≤ 65535) (hpacket : buffer.packet? d.length = some packet) :
    ∃ what, GoesOn packet r what ∧
      (g.counters.packetsSuppressed ≠ f.counters.packetsSuppressed →
        ∃ e, (f.started k p).stage = .active e ∧
          what.payload = ((f.started k p).suppress k e packet.payload).payload) := by
  have hwf := Buffer.wellFormed_of_packet? hsmall hpacket
  have htally := fun e => f.suppressed_analysed k p e packet.payload
  have hsame : (f.started k p).passed.counters.packetsSuppressed = f.counters.packetsSuppressed := by
    rw [passed, started_counters]
    rfl
  -- what every exit but two leaves in the buffer
  have harrived : ∀ notices analyses,
      GoesOn packet ⟨.delivered d, buffer, notices, analyses⟩ packet :=
    fun notices analyses => ⟨d, rfl, hpacket, .refl _⟩
  cases h with
  | degraded _ notices hquiet hstage =>
    exact ⟨packet, harrived _ _, fun hne => absurd hsame hne⟩
  | overrun _ e notices hquiet hstage hsize hfault =>
    exact absurd hfault (Buffer.decode_ne_error_of_packet? hpacket _)
  | unread _ e notices hquiet hstage hfault =>
    exact ⟨packet, harrived _ _, fun hne => absurd hsame hne⟩
  | short _ e packet' notices hquiet hstage hpacket' hshort =>
    exact ⟨packet, harrived _ _, fun hne => absurd hsame hne⟩
  | suppressed _ e packet' data notices hquiet htakes hdata hfits =>
    obtain rfl := htakes.unique hpacket
    refine ⟨_, ⟨_, rfl, Buffer.packet?_overwrite hwf hdata hfits, packet'.header.rewritten_agrees⟩, ?_⟩
    exact fun _ => ⟨e, htakes.stage, rfl⟩
  | gaveUp _ e packet' notices hquiet htakes hunfit hwaiting =>
    obtain rfl := htakes.unique hpacket
    exact ⟨packet', harrived _ _, fun hne => absurd (htally e) hne⟩
  | released _ e packet' data notices hquiet htakes hunfit hwaiting hdata hfits =>
    obtain rfl := htakes.unique hpacket
    refine ⟨_, ⟨_, rfl, Buffer.packet?_overwrite hwf hdata hfits, packet'.header.rewritten_agrees⟩, ?_⟩
    exact fun hne => absurd (htally e) hne
  | dropped _ e packet' notices hdrop htakes hunfit hwaiting hnone =>
    obtain rfl := htakes.unique hpacket
    exact ⟨packet', harrived _ _, fun hne => absurd (htally e) hne⟩

/-- **Headers go through unchanged.** A packet that can be read goes on as one that can be read, and its
header says what it said; if the packet is counted as suppressed, its payload is what came from the
engine. -/
theorem read_preserves_header (k : Backend pool engine) (p : pool) (f : Filter engine)
    (d : Delivery) (buffer : Buffer) {packet : Packet} (hsmall : d.length ≤ 65535)
    (hsize : d.length ≤ buffer.size)
    (hdecode : Packet.decode (buffer.toBytes.take d.length) = .ok packet) :
    ∃ d' packet', (f.read k p (.ok d) buffer).1.outcome = .delivered d' ∧
      d'.length ≤ (f.read k p (.ok d) buffer).1.buffer.size ∧
      Packet.decode ((f.read k p (.ok d) buffer).1.buffer.toBytes.take d'.length) = .ok packet' ∧
      packet'.header.Agrees packet.header ∧
      ((f.read k p (.ok d) buffer).2.1.counters.packetsSuppressed ≠ f.counters.packetsSuppressed →
        ∃ e, (f.started k p).stage = .active e ∧
          packet'.payload = ((f.started k p).suppress k e packet.payload).payload) := by
  obtain ⟨what, ⟨d', houtcome, hwhat, hagrees⟩, hpayload⟩ :=
    (f.exit_read k p (.ok d) buffer).goesOn hsmall (Buffer.packet?_eq_some.2 ⟨hsize, hdecode⟩)
  obtain ⟨hsize', hdecode'⟩ := Buffer.packet?_eq_some.1 hwhat
  exact ⟨d', what, houtcome, hsize', hdecode', hagrees, hpayload⟩

/-- A buffer that a packet fills to its last byte. The packet has padding, a marker, and an element and
two bytes of padding in its extension block. -/
def filledBuffer : Buffer :=
  ⟨[0xB0, 0xEF, 0, 1, 0, 0, 0xBB, 0x80, 0, 0, 0x30, 0x39, 0xBE, 0xDE, 0, 1, 0x10, 0x7F, 0, 0,
    1, 2, 3, 4, 0, 0, 0, 4], 0⟩

/-- A filter that has all of a frame but its last four bytes. -/
def nearlyFrame : Filter Nat :=
  { (new 12345 ⟨true, .ofNat 0, false, true⟩ : Filter Nat) with
    stage := .active 0
    accumulator := ⟨Bytes.zeros 956⟩ }

/-- A header goes through also where the frame that the packet completes has no room in the buffer. -/
theorem read_preserves_header_of_filled :
    filledBuffer.size ≤ 65535 ∧
      ∃ d' packet' packet,
        Packet.decode filledBuffer.toBytes = .ok packet ∧ packet.header.extension.isSome = true ∧
        (nearlyFrame.read (Script.backend ⟨[], []⟩) 0 (.ok ⟨28, []⟩) filledBuffer).1.outcome =
          .delivered d' ∧
        Packet.decode ((nearlyFrame.read (Script.backend ⟨[], []⟩) 0 (.ok ⟨28, []⟩)
          filledBuffer).1.buffer.toBytes.take d'.length) = .ok packet' ∧
        packet'.header.Agrees packet.header := by
  have hdecode : Packet.decode filledBuffer.toBytes =
      .ok ⟨⟨2, true, some ⟨oneByteProfile, [⟨1, [0x7F]⟩], 2⟩, true, 111, 1, 48000, 12345, []⟩,
        [1, 2, 3, 4]⟩ := by cbv
  obtain ⟨d', packet', houtcome, -, hdecode', hagrees, -⟩ :=
    nearlyFrame.read_preserves_header (Script.backend ⟨[], []⟩) 0 ⟨28, []⟩ filledBuffer (by decide)
      (by decide) hdecode
  exact ⟨by decide, d', packet', _, hdecode, rfl, houtcome, hdecode', hagrees⟩

end Filter

end NoiseFilter
