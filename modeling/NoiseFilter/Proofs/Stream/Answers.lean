import NoiseFilter.Engine.Script
import NoiseFilter.Proofs.Rtp.Overrun
import NoiseFilter.Proofs.Stream.Exits
import NoiseFilter.Proofs.Stream.Suppression

/-!
# What a read answers

A filter is meant to add no error of its own: a read fails only if the transport did, and whatever the
filter cannot work on goes on as it arrived. `Filter.read_answers` says how far that is so.

* The **errors** of a read are those of the transport, all of them and no others.
* A delivery is **answered** unless the read aborts, and it aborts exactly if the filter has an engine
  and the delivered bytes overrun (`Filter.Aborts`, `Rtp.Overruns`): a filter without an engine never
  looks at the bytes.
* What the filter **cannot work on** goes on as it arrived (`Filter.Unworkable`): everything where there
  is no engine, what is no packet, a packet whose header cannot be written again, and one that is too
  large for the buffer with its new payload and with what waited. A frame that the engine fails on goes
  on as it arrived too.
-/

namespace NoiseFilter

open Rtp

namespace Filter

variable {pool engine : Type}

/-- **The reads that abort**: the filter has an engine, and the bytes are there and overrun. -/
structure Aborts (k : Backend pool engine) (p : pool) (f : Filter engine) (d : Delivery)
    (buffer : Buffer) : Prop where
  stage : ∃ e, (f.started k p).stage = .active e
  size : d.length ≤ buffer.size
  overruns : Overruns (buffer.toBytes.take d.length)

/-- **What a filter cannot work on**: anything without an engine, what is no packet, a packet whose
header cannot be written again, and one that does not go into the buffer with its new payload, where
nothing waits that has to go out in front of it or that does not go into the buffer either. -/
inductive Unworkable (k : Backend pool engine) (p : pool) (f : Filter engine) (d : Delivery)
    (buffer : Buffer) : Prop
  | degraded (hstage : ∀ e, (f.started k p).stage ≠ .active e)
  | unread (hpacket : buffer.packet? d.length = none)
  | unwritable (packet : Packet) (hpacket : buffer.packet? d.length = some packet)
      (hspelled : packet.header.spell.length ≠ packet.header.size)
  | unfit (e : engine) (packet : Packet) (hstage : (f.started k p).stage = .active e)
      (hpacket : buffer.packet? d.length = some packet)
      (hunfit : Unfit { packet with
        payload := ((f.started k p).suppress k e packet.payload).payload } buffer)
      (hwaiting : f.accumulator.waiting = [] ∨ Unfit { packet with
        payload := (f.backlog packet).take (buffer.size - packet.header.size) } buffer)

/-- There is no packet in a buffer that overruns. -/
theorem Aborts.packet?_eq_none {k : Backend pool engine} {p : pool} {f : Filter engine}
    {d : Delivery} {buffer : Buffer} (h : f.Aborts k p d buffer) : buffer.packet? d.length = none :=
  Buffer.packet?_eq_none fun _ => ⟨_, Packet.decode_eq_overrun_iff.2 h.overruns⟩

/-- A read fails exactly if the transport did. -/
theorem Exit.failed_iff {k : Backend pool engine} {p : pool} {f g : Filter engine} {buffer : Buffer}
    {arrival : Arrival} {r : Reading} (h : f.Exit k p buffer arrival r g) (why : TransportError) :
    r.outcome = .failed why ↔ arrival = .error why := by
  cases h with
  | failed why' =>
    constructor
    · rintro ⟨⟩
      rfl
    · rintro ⟨⟩
      rfl
  | degraded | overrun | unread | short | suppressed | gaveUp | released | dropped =>
    exact iff_of_false (fun h => nomatch h) (fun h => nomatch h)

/-- A delivery is answered unless the read aborts. -/
theorem Exit.delivered_iff {k : Backend pool engine} {p : pool} {f g : Filter engine}
    {buffer : Buffer} {d : Delivery} {r : Reading} (h : f.Exit k p buffer (.ok d) r g) :
    (∃ d', r.outcome = .delivered d') ↔ ¬ f.Aborts k p d buffer := by
  have hread : ∀ {packet}, buffer.packet? d.length = some packet → ¬ f.Aborts k p d buffer := by
    intro packet hpacket haborts
    rw [haborts.packet?_eq_none] at hpacket
    cases hpacket
  cases h with
  | overrun _ e notices hquiet hstage hsize hfault =>
    refine iff_of_false (fun ⟨d', h⟩ => nomatch h) fun h => h ⟨⟨e, hstage⟩, hsize, ?_⟩
    exact Packet.decode_eq_overrun_iff.1 hfault
  | degraded _ notices hquiet hstage =>
    refine iff_of_true ⟨d, rfl⟩ ?_
    rintro ⟨⟨e, he⟩, -, -⟩
    exact hstage e he
  | unread _ e notices hquiet hstage hfault =>
    refine iff_of_true ⟨d, rfl⟩ ?_
    rintro ⟨-, hsize, hoverruns⟩
    obtain ⟨what, hmalformed⟩ := hfault hsize
    rw [Packet.decode_eq_overrun_iff.2 hoverruns] at hmalformed
    cases hmalformed
  | short _ e packet notices hquiet hstage hpacket =>
    exact iff_of_true ⟨_, rfl⟩ (hread hpacket)
  | suppressed _ e packet data notices hquiet htakes =>
    exact iff_of_true ⟨_, rfl⟩ (hread htakes.decoded)
  | gaveUp _ e packet notices hquiet htakes => exact iff_of_true ⟨_, rfl⟩ (hread htakes.decoded)
  | released _ e packet data notices hquiet htakes =>
    exact iff_of_true ⟨_, rfl⟩ (hread htakes.decoded)
  | dropped _ e packet notices hdrop htakes => exact iff_of_true ⟨_, rfl⟩ (hread htakes.decoded)

/-- **What cannot be worked on goes on as it arrived.** -/
theorem Exit.forwards {k : Backend pool engine} {p : pool} {f g : Filter engine} {buffer : Buffer}
    {d : Delivery} {r : Reading} (h : f.Exit k p buffer (.ok d) r g) (hno : ¬ f.Aborts k p d buffer)
    (hunworkable : f.Unworkable k p d buffer) : r.outcome = .delivered d ∧ r.buffer = buffer := by
  -- a packet for the engine is unworkable only if neither way of writing it is open
  have hclosed : ∀ {e packet}, (f.started k p).Takes e d buffer packet →
      Unfit { packet with payload := ((f.started k p).suppress k e packet.payload).payload } buffer ∧
        (f.accumulator.waiting = [] ∨ Unfit { packet with
          payload := (f.backlog packet).take (buffer.size - packet.header.size) } buffer) := by
    intro e packet htakes
    rcases hunworkable with hstage | hpacket | ⟨packet', hpacket, hspelled⟩ |
      ⟨e', packet', hstage, hpacket, hunfit, hwaiting⟩
    · exact absurd htakes.stage (hstage e)
    · rw [htakes.decoded] at hpacket
      cases hpacket
    · obtain rfl := htakes.unique hpacket
      exact ⟨unfit_iff.2 fun h => absurd h hspelled, .inr (unfit_iff.2 fun h => absurd h hspelled)⟩
    · obtain rfl := htakes.unique hpacket
      obtain rfl := htakes.engine_unique hstage
      exact ⟨hunfit, hwaiting⟩
  cases h with
  | overrun _ e notices hquiet hstage hsize hfault =>
    exact absurd ⟨⟨e, hstage⟩, hsize, Packet.decode_eq_overrun_iff.1 hfault⟩ hno
  | degraded | unread | short | gaveUp | dropped => exact ⟨rfl, rfl⟩
  | suppressed _ e packet data notices hquiet htakes hdata hfits =>
    have hlarge := (hclosed htakes).1 _ hdata
    omega
  | released _ e packet data notices hquiet htakes hunfit hwaiting hdata hfits =>
    rcases (hclosed htakes).2 with hempty | hnone
    · exact absurd hempty hwaiting
    · have hlarge := hnone _ hdata
      omega

/-- **What a read answers.** Its errors are the transport's; a delivery is answered with a packet unless
the read aborts; and what the filter cannot work on goes on as it arrived, and so does a frame that the
engine failed on. -/
theorem read_answers (k : Backend pool engine) (p : pool) (f : Filter engine) (arrival : Arrival)
    (buffer : Buffer) :
    (∀ why, (f.read k p arrival buffer).1.outcome = .failed why ↔ arrival = .error why) ∧
      (∀ d, arrival = .ok d →
        ((∃ d', (f.read k p arrival buffer).1.outcome = .delivered d') ↔
            ¬ f.Aborts k p d buffer) ∧
          (¬ f.Aborts k p d buffer → f.Unworkable k p d buffer →
            (f.read k p arrival buffer).1.outcome = .delivered d ∧
              (f.read k p arrival buffer).1.buffer = buffer)) ∧
      ∀ a ∈ (f.read k p arrival buffer).1.analyses, ∀ why, a.answer = .error why →
        a.output = a.frame := by
  have hexit := f.exit_read k p arrival buffer
  refine ⟨hexit.failed_iff, ?_, fun a _ why hwhy => a.output_of_error hwhy⟩
  rintro d rfl
  exact ⟨hexit.delivered_iff, hexit.forwards⟩

/-- A packet of 23 bytes in a buffer of 64. The element in its block says sixteen bytes, and there are
six. -/
def cutBuffer : Buffer :=
  ⟨[0x90, 0x6F, 0, 1, 0, 0, 0xBB, 0x80, 0, 0, 0x30, 0x39, 0xBE, 0xDE, 0, 1, 0x1F, 0, 0, 0, 1, 2, 3], 41⟩

/-- A read of a cut element is not answered. -/
theorem not_delivered_of_cut :
    ¬ ∃ d, ((new 12345 { Settings.default with enabled := true } : Filter Nat).read
      (Script.backend ⟨[], []⟩) 0 (.ok ⟨23, []⟩) cutBuffer).1.outcome = .delivered d := by
  have haborted : ((new 12345 { Settings.default with enabled := true } : Filter Nat).read
      (Script.backend ⟨[], []⟩) 0 (.ok ⟨23, []⟩) cutBuffer).1.outcome = .aborted := by
    decide +kernel
  rw [haborted]
  exact fun ⟨d, h⟩ => nomatch h

end Filter

end NoiseFilter
