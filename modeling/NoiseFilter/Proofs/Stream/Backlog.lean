import NoiseFilter.Engine.Script
import NoiseFilter.Proofs.Stream.Flow

/-!
# How many bytes wait

An incomplete frame is meant to wait for the next packet, and less than a frame always does after the
bytes were cut into frames (`Filter.waiting_suppress_lt`). The exit `released` is the exception: it cuts
no frames, and lets wait whatever did not fit into the packet. As a rule that is less than a frame too,
since the packet had room for its own payload and so the backlog moves up by no more than it takes. A
packet whose header **grows** as it is written again has less room, and then more waits than before.

`Filter.Overfills` says which packets do that at which filter. It is exact:

* a run leaves less than a frame waiting after each of its steps if and only if no packet in it
  overfills the filter (`Filter.waiting_lt_frame_iff`);
* an overfilling packet lets as many bytes more wait as it has outgrown its buffer
  (`Filter.Exit.waiting_of_overfills`), which is three at most (`Filter.waiting_run_lt`).

A header grows where reading its elements does not stop at the end of their block: the last one reaches
beyond it, or the reserved id stops it early. Written again, the elements are filled up to a word. Such
packets add up, and so there is no bound on what may wait (`Filter.waiting_run_replicate`, `Filter.waiting_growingActions`).
-/

namespace NoiseFilter

open Rtp

namespace Filter

variable {pool engine : Type}

/-- **A packet that overfills a filter**: it has no padding, its header can be written and goes into the
buffer, and the packet, written again, outgrows the buffer by what the waiting bytes are short of a
frame. -/
structure Overfills (f : Filter engine) (d : Delivery) (buffer : Buffer) (packet : Packet) : Prop where
  decoded : buffer.packet? d.length = some packet
  padding : packet.header.padding = false
  spelled : packet.header.spell.length = packet.header.size
  room : packet.header.size ≤ buffer.size
  outgrown : frameBytes + buffer.size ≤ f.accumulator.waiting.length + packet.size

namespace Overfills

variable {f : Filter engine} {d : Delivery} {buffer : Buffer} {packet : Packet}

theorem size_eq (h : f.Overfills d buffer packet) :
    packet.size = packet.header.size + packet.payload.length :=
  Packet.size_of_unpadded packet.payload h.padding

/-- Writing a packet again makes it longer by three bytes at most. -/
theorem size_le (h : f.Overfills d buffer packet) : packet.size ≤ d.length + 3 := by
  obtain ⟨hsize, hdecode⟩ := Buffer.packet?_eq_some.1 h.decoded
  have hle := (Packet.of_decode hdecode).2
  have hlen : (buffer.toBytes.take d.length).length = d.length := by
    rw [List.length_take, Buffer.length_toBytes]
    omega
  rw [h.size_eq]
  omega

/-- A packet overfills a filter only where a frame all but complete waits. -/
theorem waits (h : f.Overfills d buffer packet) : frameBytes ≤ f.accumulator.waiting.length + 3 := by
  have hsize := Buffer.le_size_of_packet? h.decoded
  have hle := h.size_le
  have hover := h.outgrown
  omega

theorem waiting_ne_nil (h : f.Overfills d buffer packet) : f.accumulator.waiting ≠ [] := by
  intro hempty
  have hwaits := h.waits
  rw [hempty] at hwaits
  exact absurd hwaits (by decide)

/-- **The packet has grown**: it is longer written again than it was, if less than a frame waited. -/
theorem grows (h : f.Overfills d buffer packet) (hlt : f.accumulator.waiting.length < frameBytes) :
    d.length < packet.size := by
  have hsize := Buffer.le_size_of_packet? h.decoded
  have hover := h.outgrown
  omega

end Overfills

/-! ### One read -/

/-- **A packet that overfills a filter leaves through `released`**, and as many bytes more wait as it has
outgrown its buffer. -/
theorem Exit.waiting_of_overfills {k : Backend pool engine} {p : pool} {f g : Filter engine}
    {buffer : Buffer} {d : Delivery} {r : Reading} (h : f.Exit k p buffer (.ok d) r g)
    (hf : f.Coherent) {packet : Packet} (ho : f.Overfills d buffer packet) :
    g.accumulator.waiting.length + buffer.size = f.accumulator.waiting.length + packet.size := by
  have hwaits := ho.waiting_ne_nil
  have hover := ho.outgrown
  have hroom := ho.room
  have hsize := ho.size_eq
  have hbacklog := f.length_backlog packet
  obtain ⟨e, htakes⟩ := hf.takes k p hwaits ho.decoded
  rcases h.of_takes htakes with ⟨data, hdata, hfits, -⟩ | ⟨-, -, waiting, rfl, hrest⟩
  · -- the processed packet is too large
    exfalso
    have hlen := (f.started k p).length_suppress k e packet.payload
    have hlt := (f.started k p).waiting_suppress_lt k e packet.payload
    rw [started_accumulator, List.length_append] at hlen
    rw [(Packet.of_encode hdata).2, Packet.size_of_unpadded _ ho.padding] at hfits
    omega
  · rw [hrest hwaits (not_unfit_take ho.spelled ho.padding hroom _)]
    change ((f.backlog packet).drop _).length + _ = _
    rw [List.length_drop]
    omega

/-- **Any other read** leaves less than a frame waiting, or what waited before. -/
theorem Exit.waiting_of_not_overfills {k : Backend pool engine} {p : pool} {f g : Filter engine}
    {buffer : Buffer} {arrival : Arrival} {r : Reading} (h : f.Exit k p buffer arrival r g)
    (hno : ∀ d packet, arrival = .ok d → ¬ f.Overfills d buffer packet) :
    g.accumulator.waiting.length < frameBytes ∨ g.accumulator.waiting = f.accumulator.waiting := by
  have hstarted := congrArg Accumulator.waiting (started_accumulator k p f)
  cases h with
  | failed why => exact .inr rfl
  | degraded | overrun | unread | short => exact .inr hstarted
  | suppressed d e packet => exact .inl ((f.started k p).waiting_suppress_lt k e packet.payload)
  | gaveUp | dropped => exact .inl (show [].length < frameBytes by decide)
  | released d e packet data notices hquiet htakes hunfit hwaiting hdata hfits =>
    left
    -- were a frame left over, the packet would fill the buffer, and so overfill the filter
    change ((f.backlog packet).drop _).length < _
    rw [List.length_drop]
    refine Nat.lt_of_not_le fun hfull => ?_
    have hbacklog := f.length_backlog packet
    have hframe : 0 < frameBytes := by decide
    obtain ⟨rfl, hdata'⟩ := Packet.of_encode hdata
    rw [hdata', Packet.size, List.length_take, Nat.min_eq_left (by omega)] at hfits
    dsimp only at hfits
    -- no room is left for padding
    have hpadding : packet.header.padding = false := by
      cases hp : packet.header.padding with
      | false => rfl
      | true =>
        have hpos : 0 < Packet.paddingBytes { packet with
            payload := (f.backlog packet).take (buffer.size - packet.header.size) } :=
          Packet.paddingBytes_pos hp
        omega
    refine hno d packet rfl ⟨htakes.decoded, hpadding, Packet.encode_eq_ok.1 hdata, by omega, ?_⟩
    rw [show packet.size = _ from Packet.size_of_unpadded packet.payload hpadding]
    omega

/-- **A packet with room enough** leaves through `suppressed`, and what does not fill a frame waits. -/
theorem Exit.waiting_of_fits {k : Backend pool engine} {p : pool} {f g : Filter engine}
    {buffer : Buffer} {d : Delivery} {r : Reading} {e : engine} {packet : Packet}
    (h : f.Exit k p buffer (.ok d) r g) (hstage : (f.started k p).stage = .active e)
    (hcarry : f.settings.carryRemainder = true) (hpacket : buffer.packet? d.length = some packet)
    (hlong : frameBytes ≤ packet.payload.length)
    (hspelled : packet.header.spell.length = packet.header.size)
    (hfits : packet.header.size + (f.backlog packet).length + 4 ≤ buffer.size) :
    g.accumulator.waiting.length = (f.backlog packet).length % frameBytes := by
  have hbacklog := f.length_backlog packet
  have hwaits := (f.started k p).suppress_of_waits k e packet.payload
    (by rw [started_settings]; exact hcarry) (by rw [started_accumulator, List.length_append]; omega)
  rcases h.of_takes (takes_of_long hstage hpacket hlong) with
    ⟨data, hdata, hfits', -, -, rfl⟩ | ⟨hunfit, -⟩
  · change ((f.started k p).suppress k e packet.payload).accumulator.waiting.length = _
    rw [hwaits.2, (Accumulator.length_feed _ _).2, started_accumulator]
    rfl
  · -- the processed packet is no larger than all that has arrived, and so it fits
    refine absurd hunfit (not_unfit_suppress k e hspelled ?_)
    rw [backlog, started_accumulator]
    exact hfits

/-- **When a read leaves a whole frame waiting**, if there was none before. -/
theorem Exit.frame_le_waiting_iff {k : Backend pool engine} {p : pool} {f g : Filter engine}
    {buffer : Buffer} {arrival : Arrival} {r : Reading} (h : f.Exit k p buffer arrival r g)
    (hf : f.Coherent) (hlt : f.accumulator.waiting.length < frameBytes) :
    frameBytes ≤ g.accumulator.waiting.length ↔
      ∃ d packet, arrival = .ok d ∧ f.Overfills d buffer packet := by
  constructor
  · intro hfull
    refine Classical.byContradiction fun hno => ?_
    have hother := h.waiting_of_not_overfills fun d packet harrival ho =>
      hno ⟨d, packet, harrival, ho⟩
    rcases hother with hsmall | hsame
    · omega
    · rw [hsame] at hfull
      omega
  · rintro ⟨d, packet, rfl, ho⟩
    have hexact := h.waiting_of_overfills hf ho
    have hover := ho.outgrown
    omega

/-- **A read adds three bytes at most**, unless less than a frame waits after it. -/
theorem Exit.waiting_le {k : Backend pool engine} {p : pool} {f g : Filter engine} {buffer : Buffer}
    {arrival : Arrival} {r : Reading} (h : f.Exit k p buffer arrival r g) (hf : f.Coherent) :
    g.accumulator.waiting.length < frameBytes ∨
      g.accumulator.waiting.length ≤ f.accumulator.waiting.length + 3 := by
  by_cases hoverfills : ∃ d packet, arrival = .ok d ∧ f.Overfills d buffer packet
  · obtain ⟨d, packet, rfl, ho⟩ := hoverfills
    have hexact := h.waiting_of_overfills hf ho
    have hsize := Buffer.le_size_of_packet? ho.decoded
    have hle := ho.size_le
    omega
  · have hother := h.waiting_of_not_overfills fun d packet harrival ho =>
      hoverfills ⟨d, packet, harrival, ho⟩
    rcases hother with hsmall | hsame
    · exact .inl hsmall
    · exact .inr (by rw [hsame]; omega)

/-! ### A run -/

/-- A turn that overfills the filter it meets. -/
def Turn.Overfills : Turn engine → Prop
  | read before (.ok d) buffer _ => ∃ packet, before.Overfills d buffer packet
  | _ => False

/-- One action leaves a whole frame waiting exactly if it overfills the filter. -/
theorem frame_le_waiting_act (k : Backend pool engine) (p : pool) {f : Filter engine}
    (hf : f.Coherent) (hlt : f.accumulator.waiting.length < frameBytes) (a : Action) :
    frameBytes ≤ (f.act k p a).2.1.accumulator.waiting.length ↔ (f.act k p a).1.Overfills := by
  cases a with
  | read arrival buffer =>
    refine ((f.exit_read k p arrival buffer).frame_le_waiting_iff hf hlt).trans ?_
    cases arrival with
    | error why => exact iff_of_false (fun ⟨d, packet, h, _⟩ => nomatch h) id
    | ok d =>
      constructor
      · rintro ⟨d', packet, hd, ho⟩
        cases hd
        exact ⟨packet, ho⟩
      · rintro ⟨packet, ho⟩
        exact ⟨d, packet, rfl, ho⟩
  | drain => exact iff_of_false (show ¬ frameBytes ≤ [].length by decide) id

theorem Coherent.waiting_lt_iff (k : Backend pool engine) (actions : List Action) :
    ∀ (p : pool) {f : Filter engine}, f.Coherent → f.accumulator.waiting.length < frameBytes →
      ((∀ n, (f.run k p (actions.take n)).2.1.accumulator.waiting.length < frameBytes) ↔
        ∀ t ∈ (f.run k p actions).1, ¬ t.Overfills) := by
  induction actions with
  | nil =>
    intro p f hf hlt
    refine iff_of_true (fun n => ?_) fun t ht => absurd ht List.not_mem_nil
    rw [List.take_nil]
    exact hlt
  | cons a actions ih =>
    intro p f hf hlt
    have hone := frame_le_waiting_act k p hf hlt a
    have hrest := ih (f.act k p a).2.2 (coherent_act k p f a hf)
    rw [run_cons, List.forall_mem_cons]
    constructor
    · intro hall
      have hafter : (f.act k p a).2.1.accumulator.waiting.length < frameBytes := hall 1
      refine ⟨fun ho => Nat.not_le_of_lt hafter (hone.2 ho), (hrest hafter).1 fun n => ?_⟩
      exact hall (n + 1)
    · rintro ⟨hno, hnone⟩ n
      have hafter : (f.act k p a).2.1.accumulator.waiting.length < frameBytes :=
        Nat.lt_of_not_le fun hle => hno (hone.1 hle)
      cases n with
      | zero => exact hlt
      | succ n => exact (hrest hafter).2 hnone n

/-- **Less than a frame waits after every step of a run exactly if no packet overfills the filter.** -/
theorem waiting_lt_frame_iff (k : Backend pool engine) (p : pool) (ssrc : UInt32)
    (settings : Settings) (actions : List Action) :
    (∀ n, ((new ssrc settings).run k p (actions.take n)).2.1.accumulator.waiting.length <
        frameBytes) ↔
      ∀ t ∈ ((new ssrc settings).run k p actions).1, ¬ t.Overfills :=
  (coherent_new ssrc settings).waiting_lt_iff k actions p (show [].length < frameBytes by decide)

/-- **Packets that have outgrown their buffer add up.** A packet that overfills a filter and arrives
again and again lets the backlog grow each time by the same number of bytes. -/
theorem waiting_run_replicate (k : Backend pool engine) {d : Delivery} {buffer : Buffer}
    {packet : Packet} (hgrown : buffer.size ≤ packet.size) (count : Nat) :
    ∀ (p : pool) {f : Filter engine}, f.Coherent → f.Overfills d buffer packet →
      (f.run k p (List.replicate count (.read (.ok d) buffer))).2.1.accumulator.waiting.length =
        f.accumulator.waiting.length + count * (packet.size - buffer.size) := by
  induction count with
  | zero =>
    intro p f _ _
    rw [Nat.zero_mul]
    rfl
  | succ count ih =>
    intro p f hf ho
    have hexact := (f.exit_read k p (.ok d) buffer).waiting_of_overfills hf ho
    have hcoherent := coherent_act k p f (.read (.ok d) buffer) hf
    have ho' : (f.act k p (.read (.ok d) buffer)).2.1.Overfills d buffer packet := by
      refine ⟨ho.decoded, ho.padding, ho.spelled, ho.room, ?_⟩
      have hover := ho.outgrown
      change _ ≤ (f.read k p (.ok d) buffer).2.1.accumulator.waiting.length + _
      omega
    rw [List.replicate_succ, run_cons, ih _ hcoherent ho', Nat.add_mul]
    change (f.read k p (.ok d) buffer).2.1.accumulator.waiting.length + _ = _
    omega

theorem Coherent.waiting_run_lt (k : Backend pool engine) (actions : List Action) :
    ∀ (p : pool) {f : Filter engine} {bound : Nat}, f.Coherent → frameBytes ≤ bound →
      f.accumulator.waiting.length < bound →
      (f.run k p actions).2.1.accumulator.waiting.length < bound + 3 * actions.length := by
  induction actions with
  | nil => exact fun p f bound _ _ hlt => hlt
  | cons a actions ih =>
    intro p f bound hf hframe hlt
    have hstep : (f.act k p a).2.1.accumulator.waiting.length < bound + 3 := by
      cases a with
      | read arrival buffer =>
        have hle := (f.exit_read k p arrival buffer).waiting_le hf
        change (f.read k p arrival buffer).2.1.accumulator.waiting.length < _
        omega
      | drain =>
        change 0 < bound + 3
        omega
    have hrest := ih (f.act k p a).2.2 (coherent_act k p f a hf) (by omega) hstep
    change ((f.act k p a).2.1.run k (f.act k p a).2.2 actions).2.1.accumulator.waiting.length < _
    rw [List.length_cons]
    omega

/-- **No run adds more than three bytes a step** to an incomplete frame. -/
theorem waiting_run_lt (k : Backend pool engine) (p : pool) (ssrc : UInt32) (settings : Settings)
    (actions : List Action) :
    ((new ssrc settings).run k p actions).2.1.accumulator.waiting.length <
      frameBytes + 3 * actions.length :=
  (coherent_new ssrc settings).waiting_run_lt k actions p (Nat.le_refl _)
    (show [].length < frameBytes by decide)

/-! ### A backlog without bounds -/

/-- Settings with which an incomplete frame waits. -/
def carrying : Settings := { Settings.default with enabled := true, carryRemainder := true }

/-- A packet that is one byte short of two frames, in a large buffer. -/
def largeBuffer : Buffer :=
  ⟨[0x80, 0x6F, 0, 1, 0, 0, 0xBB, 0x80, 0, 0, 0x30, 0x39] ++ Bytes.zeros 1919, 2165⟩

/-- A packet that grows, in a buffer that it fills: its block has room for three of the sixteen bytes
of its element. -/
def grownBuffer : Buffer :=
  ⟨[0x90, 0x6F, 0, 2, 0, 0, 0xBB, 0x80, 0, 0, 0x30, 0x39, 0xBE, 0xDE, 0, 1, 0x1F] ++ Bytes.zeros 16 ++
    [7, 7, 7], 0⟩

/-- One large packet, then packets that grow. -/
def growingActions (count : Nat) : List Action :=
  .read (.ok ⟨1931, []⟩) largeBuffer :: List.replicate count (.read (.ok ⟨36, []⟩) grownBuffer)

theorem packet?_largeBuffer : ∃ header : Header,
    largeBuffer.packet? 1931 = some ⟨header, Bytes.zeros 1919⟩ ∧ header.spell.length = header.size ∧
      header.size + 1919 + 4 ≤ largeBuffer.size := by
  obtain ⟨header, hheader⟩ : ∃ h : Header, h = ⟨2, false, none, false, 111, 1, 48000, 12345, []⟩ :=
    ⟨_, rfl⟩
  have hspell : header.spell = [0x80, 0x6F, 0, 1, 0, 0, 0xBB, 0x80, 0, 0, 0x30, 0x39] := by
    rw [hheader]
    decide
  have hspelled : header.spell.length = header.size := by
    rw [hheader]
    decide
  have hwf : header.WellFormed := by
    rw [hheader]
    exact ⟨by decide, by decide, fun b hb => nomatch hb⟩
  have hlen : largeBuffer.written.length = 1931 := by
    rw [largeBuffer, List.length_append, Bytes.length_zeros]
    rfl
  have hsize : largeBuffer.size = 4096 := by
    rw [Buffer.size, hlen]
    rfl
  have hwritten : Packet.spell ⟨header, Bytes.zeros 1919⟩ = largeBuffer.written := by
    rw [Packet.spell, hspell, Packet.spellPadding, hheader]
    exact List.append_nil _
  refine ⟨header, Buffer.packet?_eq_some.2 ⟨by omega, ?_⟩, hspelled, ?_⟩
  · rw [Buffer.toBytes, ← hlen, List.take_left, ← hwritten,
      Packet.decode_of_encode hwf (Packet.encode_eq_ok.2 hspelled), hheader]
    rfl
  · rw [← hspelled, hspell, hsize]
    decide

/-- The packet in `grownBuffer` overfills every filter with all but three bytes of a frame. -/
theorem overfills_grownBuffer : ∃ packet : Packet, packet.size = grownBuffer.size + 3 ∧
    ∀ f : Filter engine, frameBytes ≤ f.accumulator.waiting.length + 3 →
      f.Overfills ⟨36, []⟩ grownBuffer packet := by
  refine ⟨⟨⟨2, false, some ⟨oneByteProfile, [⟨1, Bytes.zeros 16⟩], 0⟩, false, 111, 2, 48000, 12345, []⟩,
    [7, 7, 7]⟩, by decide, fun f hwaiting => ⟨by cbv, rfl, by decide, by decide, ?_⟩⟩
  change frameBytes + 36 ≤ _ + 39
  omega

/-- All of a frame but a byte waits after the packet in `largeBuffer`. -/
theorem waiting_largeBuffer : ((new 12345 carrying : Filter Nat).act (Script.backend ⟨[], []⟩) 0
    (.read (.ok ⟨1931, []⟩) largeBuffer)).2.1.accumulator.waiting.length = 959 := by
  obtain ⟨header, hpacket, hspelled, hfits⟩ := packet?_largeBuffer
  have hbacklog : ((new 12345 carrying : Filter Nat).backlog
      ⟨header, Bytes.zeros 1919⟩).length = 1919 := by
    rw [backlog, List.length_append, Bytes.length_zeros]
    rfl
  have hwaiting := (exit_read (Script.backend ⟨[], []⟩) 0 (new 12345 carrying)
    (.ok ⟨1931, []⟩) largeBuffer).waiting_of_fits (e := 0) rfl rfl hpacket
    (by rw [Bytes.length_zeros]; decide) hspelled (by rw [hbacklog]; exact hfits)
  rw [act_read, hwaiting, hbacklog]
  rfl

/-- **The backlog grows without bounds**: by three bytes with every packet after the first. -/
theorem waiting_growingActions (count : Nat) :
    ((new 12345 carrying : Filter Nat).run (Script.backend ⟨[], []⟩) 0
      (growingActions count)).2.1.accumulator.waiting.length = 959 + 3 * count := by
  have hcoherent := coherent_act (Script.backend ⟨[], []⟩) 0 (new 12345 carrying)
    (.read (.ok ⟨1931, []⟩) largeBuffer) (coherent_new 12345 carrying)
  obtain ⟨packet, hsize, hoverfills⟩ := @overfills_grownBuffer Nat
  have ho := hoverfills _ (by rw [waiting_largeBuffer]; decide)
  rw [growingActions, run_cons, waiting_run_replicate _ (by omega) count _ hcoherent ho,
    waiting_largeBuffer, hsize, Nat.add_sub_cancel_left, Nat.mul_comm]

/-- A whole frame waits after two reads. -/
theorem frame_le_waiting_of_two :
    ¬ ((new 12345 carrying : Filter Nat).run (Script.backend ⟨[], []⟩) 0
      [.read (.ok ⟨1931, []⟩) largeBuffer,
        .read (.ok ⟨36, []⟩) grownBuffer]).2.1.accumulator.waiting.length < frameBytes := by
  have hwaiting := waiting_growingActions 1
  rw [growingActions, List.replicate_one] at hwaiting
  rw [hwaiting]
  decide

end Filter

end NoiseFilter
