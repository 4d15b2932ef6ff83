import NoiseFilter.Proofs.Rtp.Alike
import NoiseFilter.Proofs.Stream.Numbering

/-!
# When waiting bytes are lost

A processed packet that does not go into its buffer is given up. What had waited must still go out in
front of its payload: as much of the two as fits, and the rest waits again. Waiting bytes are to be lost
only where no packet can be sent at all, not even one without a payload.

`Filter.Salvages` is that rule for one read, said without regard to how a read goes about it: if some
start of the backlog can travel (`NoiseFilter.Rtp.Carries`), the longest one that can is sent and
everything behind it waits; and nothing is lost unless not even the empty payload can travel.

A read keeps the rule where the packet has no padding flag and its header is written in the size it
announces. Otherwise it fails to (`Wastes`), for two reasons:

* the room for the backlog is what the **header** leaves of the buffer. A packet with the padding flag
  needs one to four bytes more than that, so a start of the backlog that fills the room never fits;
* a header that is announced with more padding than it is written with cannot be written, whatever
  payload it gets, although a header that says the same can.

`Filter.read_salvages_iff` says that these are all: every read that falls back with bytes waiting keeps
the rule or wastes them.
-/

namespace NoiseFilter

open Rtp

/-- **A packet that wastes what waits in front of it**: it could travel, without a payload, but it has the
padding flag, or its header is not written in the size it announces. -/
def Rtp.Wastes (header : Header) (size : Nat) : Prop :=
  Carries header [] size ∧ (header.padding = true ∨ header.spell.length ≠ header.size)

namespace Filter

variable {pool engine : Type}

/-- **As much of the backlog as can travel is sent**, and the rest waits. -/
structure SendsMost (f g : Filter engine) (d : Delivery) (buffer : Buffer) (packet : Packet)
    (r : Reading) (count : Nat) : Prop where
  /-- A packet is sent with so many bytes of the backlog, and with the header that arrived. -/
  sent : ∃ length header, r.outcome = .delivered { d with length } ∧
    r.buffer.packet? length = some ⟨header, (f.backlog packet).take count⟩ ∧
    header.Agrees packet.header
  /-- No longer start of the backlog can travel. -/
  most : ∀ longer, count < longer → longer ≤ (f.backlog packet).length →
    ¬ Carries packet.header ((f.backlog packet).take longer) buffer.size
  kept : g.accumulator.waiting = (f.backlog packet).drop count

/-- **Nothing is lost that could be sent.** -/
structure Salvages (f g : Filter engine) (d : Delivery) (buffer : Buffer) (packet : Packet)
    (r : Reading) : Prop where
  sends : (∃ count, Carries packet.header ((f.backlog packet).take count) buffer.size) →
    ∃ count, f.SendsMost g d buffer packet r count
  loses : (Turn.read f (.ok d) buffer r).discarded ≠ [] → ¬ Carries packet.header [] buffer.size

section Exits

variable {k : Backend pool engine} {p : pool} {f g : Filter engine} {buffer : Buffer} {d : Delivery}
  {r : Reading} {packet : Packet}

/-- **What is given up outgrows its buffer with all of its backlog**, since processing makes nothing
longer. -/
theorem lt_size_of_unfit (k : Backend pool engine) (f : Filter engine) (e : engine)
    (hspelled : packet.header.spell.length = packet.header.size)
    (hunfit : Unfit { packet with payload := (f.suppress k e packet.payload).payload } buffer) :
    buffer.size < Packet.size ⟨packet.header, f.backlog packet⟩ := by
  have hlen := f.length_suppress k e packet.payload
  refine Nat.lt_of_lt_of_le (unfit_iff.1 hunfit hspelled) (Packet.size_mono _ ?_)
  rw [backlog]
  omega

/-- **Bytes are lost only where they are wasted**, if anything could be sent. -/
theorem wastes_iff_of_unfit (hnone : Unfit { packet with
      payload := (f.backlog packet).take (buffer.size - packet.header.size) } buffer) :
    Wastes packet.header buffer.size ↔ Carries packet.header [] buffer.size := by
  refine ⟨And.left, fun hempty => ⟨hempty, Classical.byContradiction fun hno => ?_⟩⟩
  obtain ⟨hpadding, hspelled⟩ := not_or.1 hno
  have hspelled := Classical.not_not.1 hspelled
  have hunpadded := Bool.eq_false_iff.2 hpadding
  have hroom := ((carries_iff hspelled).1 hempty).2
  rw [Packet.size_of_unpadded _ hunpadded] at hroom
  exact not_unfit_take hspelled hunpadded (Nat.le_of_add_right_le hroom) _ hnone

/-- **What goes out of a backlog goes out without padding**, and fills the buffer. -/
theorem unpadded_of_released {e : engine} {data : Bytes}
    (hunfit : Unfit { packet with payload := (f.suppress k e packet.payload).payload } buffer)
    (hdata : Packet.encode { packet with
      payload := (f.backlog packet).take (buffer.size - packet.header.size) } = .ok data)
    (hfits : data.length ≤ buffer.size) :
    packet.header.spell.length = packet.header.size ∧ packet.header.padding = false ∧
      packet.header.size ≤ buffer.size ∧
      buffer.size - packet.header.size < (f.backlog packet).length := by
  obtain ⟨rfl, hsize⟩ := Packet.of_encode hdata
  have hspelled := Packet.encode_eq_ok.1 hdata
  have hlarge := f.lt_size_of_unfit k e hspelled hunfit
  have hpos := @Packet.paddingBytes_pos { packet with
    payload := (f.backlog packet).take (buffer.size - packet.header.size) }
  rw [hsize, Packet.size, List.length_take] at hfits
  dsimp only at hfits hpos
  have hshort : buffer.size - packet.header.size < (f.backlog packet).length := by
    refine Nat.lt_of_not_le fun hall => ?_
    rw [List.take_of_length_le hall, Nat.min_eq_right hall] at hfits
    exact absurd hlarge (Nat.not_lt.2 hfits)
  refine ⟨hspelled, Bool.eq_false_iff.2 fun hpadding => ?_, by omega, hshort⟩
  have hpadded := hpos hpadding
  omega

/-- **Every fallback salvages what waits or wastes it**, and what it wastes is lost. -/
theorem Exit.salvages_iff (h : f.Exit k p buffer (.ok d) r g)
    (hpacket : buffer.packet? d.length = some packet) (hwaiting : f.accumulator.waiting ≠ [])
    (hfallback : g.counters.fallbacks ≠ f.counters.fallbacks) :
    (f.Salvages g d buffer packet r ↔ ¬ Wastes packet.header buffer.size) ∧
      (Wastes packet.header buffer.size → r.outcome = .delivered d ∧ r.buffer = buffer ∧
        (Turn.read f (.ok d) buffer r).discarded = f.accumulator.waiting ∧
        g.accumulator.waiting = []) := by
  have hstarted := started_counters k p f
  have hbacklog : (f.started k p).backlog packet = f.backlog packet := by
    rw [backlog, started_accumulator, backlog]
  cases h with
  -- the exits that do not fall back, or where nothing had waited
  | overrun => exact absurd (by rw [hstarted]) hfallback
  | degraded | unread | short => exact absurd (by rw [passed, hstarted]; rfl) hfallback
  | suppressed _ e packet' =>
    exact absurd (f.counters_analysed k p e packet'.payload).2.2 hfallback
  | gaveUp _ e packet' notices hquiet htakes hunfit hempty => exact absurd hempty hwaiting
  | released _ e packet' data notices hquiet htakes hunfit _ hdata hfits =>
    obtain rfl := htakes.unique hpacket
    rw [← hbacklog] at hdata
    obtain ⟨hspelled, hunpadded, hroom, hshort⟩ := unpadded_of_released hunfit hdata hfits
    rw [hbacklog] at hdata hshort
    have hno : ¬ Wastes packet'.header buffer.size := by
      rintro ⟨-, hpadding | hgrown⟩
      · rw [hunpadded] at hpadding
        cases hpadding
      · exact hgrown hspelled
    refine ⟨iff_of_true ⟨?_, ?_⟩ hno, fun hwastes => absurd hwastes hno⟩
    · rintro ⟨count, hcarries⟩
      have hwf := ((carries_iff hspelled).1 hcarries).1
      refine ⟨buffer.size - packet'.header.size, ⟨data.length, packet'.header.rewritten, rfl,
        Buffer.packet?_overwrite hwf hdata hfits, packet'.header.rewritten_agrees⟩, ?_, rfl⟩
      intro longer hlonger hle hcarries
      have hfits' := ((carries_iff hspelled).1 hcarries).2
      rw [Packet.size_of_unpadded _ hunpadded, List.length_take, Nat.min_eq_left hle] at hfits'
      omega
    · exact fun hlost => absurd (discarded_of_quiet hquiet) hlost
  | dropped _ e packet' notices hdrop htakes hunfit _ hnone =>
    obtain rfl := htakes.unique hpacket
    have hdiscarded : (Turn.read f (.ok d) buffer ⟨.delivered d, buffer, notices,
        ((f.started k p).suppress k e packet'.payload).analyses⟩).discarded =
        f.accumulator.waiting := by
      rw [Turn.discarded, if_pos (List.any_eq_true.2 ⟨_, hdrop, rfl⟩)]
    have hwastes := wastes_iff_of_unfit hnone
    refine ⟨⟨fun hsalvages hno => ?_, fun hno => ⟨?_, ?_⟩⟩, fun _ => ⟨rfl, rfl, hdiscarded, rfl⟩⟩
    · exact hsalvages.loses (by rw [hdiscarded]; exact hwaiting) (hwastes.1 hno)
    · rintro ⟨count, hcarries⟩
      exact absurd (hwastes.2 (hcarries.of_le (Nat.zero_le _))) hno
    · exact fun _ hempty => hno (hwastes.2 hempty)

end Exits

/-- **When waiting bytes are lost.** A read that falls back with bytes waiting salvages what can be sent
of the backlog, unless it wastes it: that is, unless the packet could be sent without a payload and has the
padding flag, or a header that is not written in the size it announces. Then the packet goes on as it
arrived, and all that had waited is lost. -/
theorem read_salvages_iff (k : Backend pool engine) (p : pool) {f : Filter engine} {d : Delivery}
    {buffer : Buffer} {packet : Packet} (hpacket : buffer.packet? d.length = some packet)
    (hwaiting : f.accumulator.waiting ≠ [])
    (hfallback : (f.read k p (.ok d) buffer).2.1.counters.fallbacks ≠ f.counters.fallbacks) :
    (f.Salvages (f.read k p (.ok d) buffer).2.1 d buffer packet (f.read k p (.ok d) buffer).1 ↔
        ¬ Wastes packet.header buffer.size) ∧
      (Wastes packet.header buffer.size →
        (f.read k p (.ok d) buffer).1.outcome = .delivered d ∧
          (f.read k p (.ok d) buffer).1.buffer = buffer ∧
          (Turn.read f (.ok d) buffer (f.read k p (.ok d) buffer).1).discarded =
            f.accumulator.waiting ∧
          (f.read k p (.ok d) buffer).2.1.accumulator.waiting = []) :=
  (f.exit_read k p (.ok d) buffer).salvages_iff hpacket hwaiting hfallback

/-! ### One byte with the flag, and one without -/

/-- **Frames that outgrow the buffer** are given up. -/
theorem Exit.fallbacks_of_outgrown {k : Backend pool engine} {p : pool} {f g : Filter engine}
    {buffer : Buffer} {d : Delivery} {r : Reading} {packet : Packet} {e : engine}
    (h : f.Exit k p buffer (.ok d) r g) (htakes : (f.started k p).Takes e d buffer packet)
    (houtgrown : buffer.size <
      packet.header.size + frameBytes * ((f.backlog packet).length / frameBytes)) :
    g.counters.fallbacks ≠ f.counters.fallbacks := by
  rcases h.of_takes htakes with ⟨data, hdata, hfits, -⟩ | ⟨-, -, waiting, rfl, -⟩
  · exfalso
    have hsent := (f.started k p).length_frames_le k e packet.payload
    rw [analyses_suppress, Backend.length_analyse, (Accumulator.length_feed _ _).1,
      started_accumulator] at hsent
    rw [(Packet.of_encode hdata).2, Packet.size] at hfits
    rw [backlog] at houtgrown
    dsimp only at hfits
    omega
  · exact f.fallbacks_fallenBack_ne k p e _ _

/-- After the packet in `largeBuffer` all of a frame but a byte waits. -/
theorem waits_after_large : ∃ turns f q, (new 12345 carrying).run (Script.backend ⟨[], []⟩) 0
      [.read (.ok ⟨1931, []⟩) largeBuffer] = (turns, f, q) ∧
    f.Coherent ∧ f.accumulator.waiting.length = 959 := by
  have hcoherent := coherent_run (Script.backend ⟨[], []⟩) 0 12345 carrying
    [.read (.ok ⟨1931, []⟩) largeBuffer]
  have hwaiting := waiting_largeBuffer
  rw [run_singleton] at hcoherent ⊢
  rcases hact : (new 12345 carrying : Filter Nat).act (Script.backend ⟨[], []⟩) 0
    (.read (.ok ⟨1931, []⟩) largeBuffer) with ⟨t, f, q⟩
  rw [hact] at hcoherent hwaiting
  exact ⟨_, f, q, rfl, hcoherent, hwaiting⟩

/-- The header of the packets below, with the padding flag or without. -/
def byteHeader (padding : Bool) : Header := { Incoming.plainHeader 2 with padding }

/-- A packet of one byte, in a buffer of its size. -/
def byteBuffer : Buffer := ⟨[0x80, 0x6F, 0, 2, 0, 0, 0xBB, 0x80, 0, 0, 0x30, 0x39, 7], 0⟩

/-- The same packet with the padding flag, and three bytes of padding. -/
def paddedBuffer : Buffer := ⟨[0xA0, 0x6F, 0, 2, 0, 0, 0xBB, 0x80, 0, 0, 0x30, 0x39, 7, 0, 0, 3], 0⟩

/-- Behind all of a frame but a byte, either packet is given up. -/
theorem fallbacks_of_byte {f : Filter Nat} (hf : f.Coherent)
    (hwaiting : f.accumulator.waiting.length = 959) {padding : Bool} {d : Delivery} {buffer : Buffer}
    (hpacket : buffer.packet? d.length = some ⟨byteHeader padding, [7]⟩) (hsize : buffer.size ≤ 16)
    (q : Nat) : f.accumulator.waiting ≠ [] ∧
      (f.read (Script.backend ⟨[], []⟩) q (.ok d) buffer).2.1.counters.fallbacks ≠
        f.counters.fallbacks := by
  have hwaits : f.accumulator.waiting ≠ [] := by
    intro hempty
    rw [hempty] at hwaiting
    cases hwaiting
  obtain ⟨e, htakes⟩ := hf.takes (Script.backend ⟨[], []⟩) q hwaits hpacket
  refine ⟨hwaits, (f.exit_read _ q (.ok d) buffer).fallbacks_of_outgrown htakes ?_⟩
  rw [backlog, List.length_append, hwaiting]
  change buffer.size < 12 + 960 * (960 / 960)
  omega

/-- Without the flag what had waited is sent, as far as it fits. -/
theorem salvages_of_byte : ∃ turns f q, (new 12345 carrying).run (Script.backend ⟨[], []⟩) 0
      [.read (.ok ⟨1931, []⟩) largeBuffer] = (turns, f, q) ∧
    f.Salvages (f.read (Script.backend ⟨[], []⟩) q (.ok ⟨13, []⟩) byteBuffer).2.1 ⟨13, []⟩ byteBuffer
      ⟨byteHeader false, [7]⟩ (f.read (Script.backend ⟨[], []⟩) q (.ok ⟨13, []⟩) byteBuffer).1 := by
  obtain ⟨turns, f, q, hrun, hf, hwaiting⟩ := waits_after_large
  have hpacket : byteBuffer.packet? (Delivery.mk 13 []).length = some ⟨byteHeader false, [7]⟩ := by
    decide +kernel
  obtain ⟨hwaits, hfallback⟩ := fallbacks_of_byte hf hwaiting hpacket (by decide) q
  refine ⟨turns, f, q, hrun, (read_salvages_iff _ q hpacket hwaits hfallback).1.2 ?_⟩
  rintro ⟨-, hpadding | hgrown⟩
  · cases hpadding
  · exact hgrown rfl

/-- With the flag all of it is lost, although three bytes would fit. -/
theorem not_salvages_of_padded : ∃ turns f q, (new 12345 carrying).run (Script.backend ⟨[], []⟩) 0
      [.read (.ok ⟨1931, []⟩) largeBuffer] = (turns, f, q) ∧
    f.accumulator.waiting ≠ [] ∧
    (f.read (Script.backend ⟨[], []⟩) q (.ok ⟨16, []⟩) paddedBuffer).2.1.counters.fallbacks ≠
      f.counters.fallbacks ∧
    paddedBuffer.packet? 16 = some ⟨byteHeader true, [7]⟩ ∧
    Carries (byteHeader true) ((f.backlog ⟨byteHeader true, [7]⟩).take 3) paddedBuffer.size ∧
    ¬ f.Salvages (f.read (Script.backend ⟨[], []⟩) q (.ok ⟨16, []⟩) paddedBuffer).2.1 ⟨16, []⟩
      paddedBuffer ⟨byteHeader true, [7]⟩
      (f.read (Script.backend ⟨[], []⟩) q (.ok ⟨16, []⟩) paddedBuffer).1 := by
  obtain ⟨turns, f, q, hrun, hf, hwaiting⟩ := waits_after_large
  have hpacket : paddedBuffer.packet? (Delivery.mk 16 []).length = some ⟨byteHeader true, [7]⟩ := by
    decide +kernel
  obtain ⟨hwaits, hfallback⟩ := fallbacks_of_byte hf hwaiting hpacket (by decide) q
  have hexit := f.exit_read (Script.backend ⟨[], []⟩) q (.ok ⟨16, []⟩) paddedBuffer
  have hwf : (byteHeader true).WellFormed := ⟨by decide, by decide, fun b hb => nomatch hb⟩
  have hthree : Carries (byteHeader true) ((f.backlog ⟨byteHeader true, [7]⟩).take 3)
      paddedBuffer.size := by
    have hlen : ((f.backlog ⟨byteHeader true, [7]⟩).take 3).length = (Bytes.zeros 3).length := by
      rw [List.length_take, length_backlog, hwaiting]
      rfl
    rw [carries_iff rfl, Packet.size_congr _ hlen]
    exact ⟨hwf, by decide⟩
  refine ⟨turns, f, q, hrun, hwaits, hfallback, hpacket, hthree, fun hsalvages => ?_⟩
  exact (hexit.salvages_iff hpacket hwaits hfallback).1.1 hsalvages
    ⟨hthree.of_le (Nat.zero_le _), .inl rfl⟩

end Filter

end NoiseFilter
