import NoiseFilter.Proofs.Stream.Answers
import NoiseFilter.Proofs.Stream.Counting

/-!
# What a read leaves alone

A filter writes into a buffer of its caller, and of that buffer it may only touch the packet. A read that
is answered hands on the transport's attributes and a length that goes into the buffer, and no byte at or
beyond that length is changed. Most reads change no byte at all: only the exits `suppressed` and
`released` write a packet, and both compare its length with the size of the buffer first.

* `Filter.Confines` is the contract of an answered read, field by field.
* `Filter.Rewrites` says of a read that it has written a packet, in terms of what can be seen from
  outside: the counters, and the loss of waiting bytes on record.
* `Filter.Leaves` lists why a read leaves its packet as it arrived, in terms of what it meets.

`Filter.read_confines` puts them together: every answered read is confined, the reads that do not rewrite
their packet are those that have a reason to leave it, and they leave the whole buffer as it was.
-/

namespace NoiseFilter

open Rtp

namespace Filter

variable {pool engine : Type}

/-! ### The contract -/

/-- **A read that is confined to its packet.** It answers with `d'`, where `d` was delivered. -/
structure Confines (d : Delivery) (buffer : Buffer) (r : Reading) (d' : Delivery) : Prop where
  outcome : r.outcome = .delivered d'
  attributes : d'.attributes = d.attributes
  size : r.buffer.size = buffer.size
  length : d.length ≤ buffer.size → d'.length ≤ buffer.size
  beyond : r.buffer.toBytes.drop d'.length = buffer.toBytes.drop d'.length

/-- What goes on as it arrived is confined. -/
theorem confines_of_kept (d : Delivery) (buffer : Buffer) (notices : List Notice)
    (analyses : List Analysis) : Confines d buffer ⟨.delivered d, buffer, notices, analyses⟩ d :=
  ⟨rfl, rfl, rfl, id, rfl⟩

/-- What is written is confined, if it goes into the buffer. -/
theorem confines_of_written (d : Delivery) {buffer : Buffer} {data : Bytes} (notices : List Notice)
    (analyses : List Analysis) (hfits : data.length ≤ buffer.size) :
    Confines d buffer
      ⟨.delivered { d with length := data.length }, buffer.overwrite data, notices, analyses⟩
      { d with length := data.length } := by
  refine ⟨rfl, rfl, Buffer.size_overwrite _ _ hfits, fun _ => hfits, ?_⟩
  rw [Buffer.toBytes_overwrite, List.drop_left]

/-- **A read that has rewritten its packet**: it is counted as suppressed, or it fell back and what had
waited was not lost. -/
inductive Rewrites (f g : Filter engine) (r : Reading) : Prop
  /-- The processed packet went out. -/
  | suppressed (hcounted : g.counters.packetsSuppressed ≠ f.counters.packetsSuppressed)
  /-- The waiting bytes went out in front of the payload. -/
  | released (hfallback : g.counters.fallbacks ≠ f.counters.fallbacks)
      (hwaiting : f.accumulator.waiting ≠ []) (hquiet : Quiet r.notices)

/-- **Why a packet is left as it arrived.** -/
inductive Leaves (k : Backend pool engine) (p : pool) (f : Filter engine) (d : Delivery)
    (buffer : Buffer) : Prop
  /-- There is no engine to be had. -/
  | degraded (hstage : ∀ e, (f.started k p).stage ≠ .active e)
  /-- The packet is said to be longer than the buffer. -/
  | beyond (hsize : buffer.size < d.length)
  /-- The bytes are refused as a packet. -/
  | unreadable (what : Malformation)
      (hdecode : Packet.decode (buffer.toBytes.take d.length) = .error (.malformed what))
  /-- The payload is less than a frame, and it completes none. -/
  | short (packet : Packet) (hpacket : buffer.packet? d.length = some packet)
      (hshort : packet.payload.length < frameBytes)
      (halone : f.settings.carryRemainder = false ∨ f.accumulator.waiting = [])
  /-- The processed packet does not go into the buffer, and nothing had waited. -/
  | unfit (e : engine) (packet : Packet) (hstage : (f.started k p).stage = .active e)
      (hpacket : buffer.packet? d.length = some packet)
      (hunfit : Unfit { packet with
        payload := ((f.started k p).suppress k e packet.payload).payload } buffer)
      (hwaiting : f.accumulator.waiting = [])
  /-- Nor does the packet that was to carry what had waited. -/
  | lost (e : engine) (packet : Packet) (hstage : (f.started k p).stage = .active e)
      (hpacket : buffer.packet? d.length = some packet)
      (hunfit : Unfit { packet with
        payload := ((f.started k p).suppress k e packet.payload).payload } buffer)
      (hnone : Unfit { packet with
        payload := (f.backlog packet).take (buffer.size - packet.header.size) } buffer)

/-! ### Every exit -/

/-- What is short is less than a frame, and nothing waits in front of it or is to wait. -/
theorem isShort_iff {f : Filter engine} {payload : Bytes} : f.isShort payload = true ↔
    payload.length < frameBytes ∧
      (f.settings.carryRemainder = false ∨ f.accumulator.waiting = []) := by
  rw [isShort, Bool.and_eq_true, decide_eq_true_eq, Bool.or_eq_true, Bool.not_eq_true',
    List.isEmpty_iff]

section Exits

variable {k : Backend pool engine} {p : pool} {f g : Filter engine} {buffer : Buffer} {d : Delivery}
  {r : Reading}

/-- A packet for the engine is left only if neither way of writing it is open. -/
theorem Leaves.closed {e : engine} {packet : Packet} (h : f.Leaves k p d buffer)
    (htakes : (f.started k p).Takes e d buffer packet) :
    Unfit { packet with payload := ((f.started k p).suppress k e packet.payload).payload } buffer ∧
      (f.accumulator.waiting = [] ∨ Unfit { packet with
        payload := (f.backlog packet).take (buffer.size - packet.header.size) } buffer) := by
  rcases h with hstage | hsize | ⟨what, hdecode⟩ | ⟨packet', hpacket, hshort, halone⟩ |
    ⟨e', packet', hstage, hpacket, hunfit, hwaiting⟩ | ⟨e', packet', hstage, hpacket, hunfit, hnone⟩
  · exact absurd htakes.stage (hstage e)
  · exact absurd (Buffer.le_size_of_packet? htakes.decoded) (Nat.not_le.2 hsize)
  · exact absurd hdecode (Buffer.decode_ne_error_of_packet? htakes.decoded _)
  · obtain rfl := htakes.unique hpacket
    have hlong := htakes.long
    rw [isShort_iff.2 ⟨hshort, by rwa [started_settings, started_accumulator]⟩] at hlong
    cases hlong
  · obtain rfl := htakes.unique hpacket
    obtain rfl := htakes.engine_unique hstage
    exact ⟨hunfit, .inl hwaiting⟩
  · obtain rfl := htakes.unique hpacket
    obtain rfl := htakes.engine_unique hstage
    exact ⟨hunfit, .inr hnone⟩

/-- **Every answered exit is confined**, and it leaves the buffer as it was unless it rewrites. -/
theorem Exit.confines (h : f.Exit k p buffer (.ok d) r g) (hno : ¬ f.Aborts k p d buffer) :
    ∃ d', Confines d buffer r d' ∧ (¬ Rewrites f g r → d' = d ∧ r.buffer = buffer) ∧
      (f.Leaves k p d buffer ↔ ¬ Rewrites f g r) := by
  -- what passes counts nothing as suppressed, and no fallback
  have hpassed : ∀ {notices analyses},
      ¬ Rewrites f (f.started k p).passed ⟨.delivered d, buffer, notices, analyses⟩ := by
    rintro notices analyses (hcounted | ⟨hfallback, -, -⟩)
    · exact hcounted (by rw [passed, started_counters]; rfl)
    · exact hfallback (by rw [passed, started_counters]; rfl)
  have hkept : ∀ {g notices analyses},
      ¬ Rewrites f g ⟨.delivered d, buffer, notices, analyses⟩ → f.Leaves k p d buffer →
      ∃ d', Confines d buffer ⟨.delivered d, buffer, notices, analyses⟩ d' ∧
        (¬ Rewrites f g ⟨.delivered d, buffer, notices, analyses⟩ → d' = d ∧ buffer = buffer) ∧
        (f.Leaves k p d buffer ↔ ¬ Rewrites f g ⟨.delivered d, buffer, notices, analyses⟩) :=
    fun hnone hleaves => ⟨d, confines_of_kept _ _ _ _, fun _ => ⟨rfl, rfl⟩, iff_of_true hleaves hnone⟩
  have hwritten : ∀ {g data notices analyses} {r : Reading}, data.length ≤ buffer.size →
      r = ⟨.delivered { d with length := data.length }, buffer.overwrite data, notices, analyses⟩ →
      Rewrites f g r → ¬ f.Leaves k p d buffer →
      ∃ d', Confines d buffer r d' ∧ (¬ Rewrites f g r → d' = d ∧ r.buffer = buffer) ∧
        (f.Leaves k p d buffer ↔ ¬ Rewrites f g r) := by
    rintro g data notices analyses r hfits rfl hrewrites hno
    exact ⟨_, confines_of_written d _ _ hfits, absurd hrewrites,
      iff_of_false hno fun hnone => hnone hrewrites⟩
  cases h with
  | degraded _ notices hquiet hstage => exact hkept hpassed (.degraded hstage)
  | overrun _ e notices hquiet hstage hsize hfault =>
    exact absurd ⟨⟨e, hstage⟩, hsize, Packet.decode_eq_overrun_iff.1 hfault⟩ hno
  | unread _ e notices hquiet hstage hfault =>
    refine hkept hpassed ?_
    rcases Nat.lt_or_ge buffer.size d.length with hbeyond | hsize
    · exact .beyond hbeyond
    · obtain ⟨what, hwhat⟩ := hfault hsize
      exact .unreadable what hwhat
  | short _ e packet notices hquiet hstage hpacket hshort =>
    obtain ⟨hlt, halone⟩ := isShort_iff.1 hshort
    rw [started_settings, started_accumulator] at halone
    exact hkept hpassed (.short packet hpacket hlt halone)
  | suppressed _ e packet data notices hquiet htakes hdata hfits =>
    refine hwritten hfits rfl (.suppressed ?_) fun hleaves => ?_
    · change ((f.started k p).analysed k e packet.payload).counters.packetsSuppressed + 1 ≠ _
      rw [f.suppressed_analysed]
      exact Nat.succ_ne_self _
    · exact absurd ((hleaves.closed htakes).1 _ hdata) (Nat.not_lt.2 hfits)
  | gaveUp _ e packet notices hquiet htakes hunfit hwaiting =>
    refine hkept ?_ (.unfit e packet htakes.stage htakes.decoded hunfit hwaiting)
    rintro (hcounted | ⟨-, hwaits, -⟩)
    · exact hcounted (f.suppressed_analysed k p e packet.payload)
    · exact hwaits hwaiting
  | released _ e packet data notices hquiet htakes hunfit hwaiting hdata hfits =>
    refine hwritten hfits rfl (.released (f.fallbacks_fallenBack_ne k p e _ _) hwaiting hquiet)
      fun hleaves => ?_
    rcases (hleaves.closed htakes).2 with hempty | hnone
    · exact hwaiting hempty
    · exact absurd (hnone _ hdata) (Nat.not_lt.2 hfits)
  | dropped _ e packet notices hdrop htakes hunfit hwaiting hnone =>
    refine hkept ?_ (.lost e packet htakes.stage htakes.decoded hunfit hnone)
    rintro (hcounted | ⟨-, -, hquiet⟩)
    · exact hcounted (f.suppressed_analysed k p e packet.payload)
    · exact hquiet _ _ hdrop

/-- A read that aborts leaves the buffer as it was. -/
theorem Exit.buffer_of_aborts (h : f.Exit k p buffer (.ok d) r g) (haborts : f.Aborts k p d buffer) :
    r.outcome = .aborted ∧ r.buffer = buffer := by
  have hread : ∀ {packet}, buffer.packet? d.length ≠ some packet := by
    intro packet hpacket
    rw [haborts.packet?_eq_none] at hpacket
    cases hpacket
  cases h with
  | overrun => exact ⟨rfl, rfl⟩
  | degraded _ notices hquiet hstage =>
    obtain ⟨e, he⟩ := haborts.stage
    exact absurd he (hstage e)
  | unread _ e notices hquiet hstage hfault =>
    obtain ⟨what, hmalformed⟩ := hfault haborts.size
    rw [Packet.decode_eq_overrun_iff.2 haborts.overruns] at hmalformed
    cases hmalformed
  | short _ e packet notices hquiet hstage hpacket => exact absurd hpacket hread
  | suppressed _ e packet data notices hquiet htakes => exact absurd htakes.decoded hread
  | gaveUp _ e packet notices hquiet htakes => exact absurd htakes.decoded hread
  | released _ e packet data notices hquiet htakes => exact absurd htakes.decoded hread
  | dropped _ e packet notices hdrop htakes => exact absurd htakes.decoded hread

end Exits

/-- **Reads are confined to their packets.** A delivery is answered with the transport's attributes and,
where its length goes into the buffer, with a length that does; no byte at or beyond the length answered
is changed. A read that does not rewrite its packet answers what was delivered and leaves the whole buffer
as it was, and the reads that do not are exactly those that have a reason to leave the packet. The one
delivery that is not answered is the one on which the packet reader aborts, and then too the buffer is
left as it was. -/
theorem read_confines (k : Backend pool engine) (p : pool) (f : Filter engine) (d : Delivery)
    (buffer : Buffer) :
    (f.Aborts k p d buffer ∧ (f.read k p (.ok d) buffer).1.outcome = .aborted ∧
        (f.read k p (.ok d) buffer).1.buffer = buffer) ∨
      (¬ f.Aborts k p d buffer ∧ ∃ d', Confines d buffer (f.read k p (.ok d) buffer).1 d' ∧
        (¬ Rewrites f (f.read k p (.ok d) buffer).2.1 (f.read k p (.ok d) buffer).1 →
          d' = d ∧ (f.read k p (.ok d) buffer).1.buffer = buffer) ∧
        (f.Leaves k p d buffer ↔
          ¬ Rewrites f (f.read k p (.ok d) buffer).2.1 (f.read k p (.ok d) buffer).1)) := by
  have hexit := f.exit_read k p (.ok d) buffer
  by_cases haborts : f.Aborts k p d buffer
  · exact .inl ⟨haborts, hexit.buffer_of_aborts haborts⟩
  · exact .inr ⟨haborts, hexit.confines haborts⟩

end Filter

end NoiseFilter
