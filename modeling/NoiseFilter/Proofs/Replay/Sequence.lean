import Mathlib.Data.List.TakeDrop
import NoiseFilter.Proofs.Replay.Packets

/-!
# Packets in sequence

A packetizer hands out the packets of its audio one after the other, each once, whatever buffers it is
asked with. A buffer that is too small gets nothing and costs nothing: the packet stays the next one. So
the only thing that a run of reads leaves behind is **how many** of them were answered with a packet, and
`Packetizer.serve_eq` says that the packetizer is then `Packetizer.after` so many packets.

What the packet of a given number is follows from its number alone (`Packetizer.numbered_after`). Of its
two counters the sequence number counts packets and the timestamp counts samples, each up to its width;
the timestamp is what it should be because every packet before the last one is full.
-/

namespace NoiseFilter

open Rtp

namespace Packetizer

/-! ### Reads in order -/

/-- What a reader asks with. -/
structure Request where
  attributes : Attributes
  buffer : Buffer

/-- What a reader gets, and its buffer afterwards. -/
structure Served where
  arrival : Arrival
  buffer : Buffer

namespace Served

/-- A packet was handed out. -/
def answered (s : Served) : Bool := s.arrival.isOk

/-- **The payload handed out**, none if no packet was. -/
def payload (s : Served) : Bytes :=
  match s.arrival with
  | .ok d => s.buffer.payload d.length
  | .error _ => []

end Served

/-- **Reads in order**: what each gets, and the packetizer at the end. -/
def serve (p : Packetizer) : List Request → List Served × Packetizer
  | [] => ([], p)
  | r :: requests =>
    let (arrival, buffer, q) := p.read r.attributes r.buffer
    let (rest, q) := q.serve requests
    (⟨arrival, buffer⟩ :: rest, q)

theorem serve_cons (p : Packetizer) (r : Request) (requests : List Request) :
    p.serve (r :: requests) =
      (⟨(p.read r.attributes r.buffer).1, (p.read r.attributes r.buffer).2.1⟩ ::
          ((p.read r.attributes r.buffer).2.2.serve requests).1,
        ((p.read r.attributes r.buffer).2.2.serve requests).2) := rfl

/-- The packetizer after so many packets. -/
def after (p : Packetizer) : Nat → Packetizer
  | 0 => p
  | count + 1 => p.advance.after count

section After

variable (p : Packetizer)

/-- **A packet takes its bytes off the audio**, and nothing else of the packetizer depends on which it
was but the two counters. -/
theorem after_fields (count : Nat) :
    (p.after count).remaining = p.remaining.drop (count * p.payloadBytes) ∧
      (p.after count).payloadBytes = p.payloadBytes ∧
      (p.after count).payloadType = p.payloadType ∧ (p.after count).ssrc = p.ssrc := by
  induction count generalizing p with
  | zero =>
    rw [Nat.zero_mul]
    exact ⟨rfl, rfl, rfl, rfl⟩
  | succ count ih =>
    obtain ⟨hremaining, hfields⟩ := ih p.advance
    refine ⟨?_, hfields⟩
    rw [after, hremaining]
    change (p.remaining.drop p.payloadBytes).drop (count * p.payloadBytes) = _
    rw [List.drop_drop, Nat.succ_mul, Nat.add_comm]

/-- The sequence number counts packets. -/
theorem sequence_after (count : Nat) :
    (p.after count).sequence = p.sequence + UInt16.ofNat count := by
  induction count generalizing p with
  | zero => exact (UInt16.add_zero _).symm
  | succ count ih =>
    rw [after, ih]
    change p.sequence + 1 + UInt16.ofNat count = _
    rw [UInt16.ofNat_add, UInt16.add_assoc, UInt16.add_comm 1]
    rfl

/-- **The timestamp counts samples**, as long as every packet so far was full. -/
theorem timestamp_after (count : Nat) (h : count * p.payloadBytes ≤ p.remaining.length) :
    (p.after count).timestamp =
      p.timestamp + UInt32.ofNat (count * (p.payloadBytes / sampleBytes)) := by
  induction count generalizing p with
  | zero =>
    rw [Nat.zero_mul]
    exact (UInt32.add_zero _).symm
  | succ count ih =>
    rw [Nat.succ_mul] at h
    have hrest : count * p.advance.payloadBytes ≤ p.advance.remaining.length := by
      change count * p.payloadBytes ≤ (p.remaining.drop p.payloadBytes).length
      rw [List.length_drop]
      omega
    have hfull : p.payload.length = p.payloadBytes := by
      rw [payload, List.length_take]
      omega
    rw [after, ih p.advance hrest]
    change p.timestamp + UInt32.ofNat (p.payload.length / sampleBytes) +
      UInt32.ofNat (count * (p.payloadBytes / sampleBytes)) = _
    rw [hfull, Nat.succ_mul, Nat.add_comm (count * _), UInt32.ofNat_add, UInt32.add_assoc]

end After

/-! ### Only packets count -/

/-- What a read does: it closes at the end of the audio, does nothing where its packet does not fit, and
otherwise hands out its packet. -/
theorem read_cases (p : Packetizer) (attributes : Attributes) (buffer : Buffer) :
    (p.remaining = [] ∧ p.read attributes buffer = (.error .closed, buffer, p)) ∨
    (p.remaining ≠ [] ∧ buffer.size < p.packet.length ∧ p.read attributes buffer =
      (.error (.other (doesNotFit p.packet.length buffer.size)), buffer, p)) ∨
    (p.remaining ≠ [] ∧ p.packet.length ≤ buffer.size ∧ p.read attributes buffer =
      (.ok ⟨p.packet.length, attributes⟩, buffer.overwrite p.packet, p.advance)) := by
  by_cases hend : p.remaining = []
  · exact .inl ⟨hend, read_of_nil hend⟩
  rcases Nat.lt_or_ge buffer.size p.packet.length with hsmall | hfits
  · have hempty : p.remaining.isEmpty = false := List.isEmpty_eq_false_iff.2 hend
    refine .inr (.inl ⟨hend, hsmall, ?_⟩)
    rw [read, hempty, if_neg Bool.false_ne_true]
    exact if_pos hsmall
  · exact .inr (.inr ⟨hend, hfits, read_of_fits hend hfits⟩)

/-- A packet in a buffer carries its payload. -/
theorem payload_overwrite_packet (p : Packetizer) {buffer : Buffer}
    (hfits : p.packet.length ≤ buffer.size) :
    (buffer.overwrite p.packet).payload p.packet.length = p.payload :=
  Buffer.payload_of_packet? (p.incoming [] hfits).decoded

/-- **Only packets count.** After any reads the packetizer is where it is after as many packets as were
handed out, and the payloads of these are the audio up to there. -/
theorem serve_eq (requests : List Request) : ∀ p : Packetizer,
    (p.serve requests).2 = p.after ((p.serve requests).1.countP Served.answered) ∧
      (p.serve requests).1.flatMap Served.payload =
        p.remaining.take ((p.serve requests).1.countP Served.answered * p.payloadBytes) := by
  induction requests with
  | nil =>
    intro p
    refine ⟨rfl, ?_⟩
    change [] = p.remaining.take (0 * p.payloadBytes)
    rw [Nat.zero_mul, List.take_zero]
  | cons r requests ih =>
    intro p
    rw [serve_cons]
    rcases p.read_cases r.attributes r.buffer with ⟨-, hread⟩ | ⟨-, -, hread⟩ | ⟨-, hfits, hread⟩
    -- a read that fails leaves everything as it was
    · rw [hread]
      exact ih p
    · rw [hread]
      exact ih p
    · obtain ⟨hafter, hpayloads⟩ := ih p.advance
      have hpayload : Served.payload ⟨.ok ⟨p.packet.length, r.attributes⟩,
          r.buffer.overwrite p.packet⟩ = p.payload := p.payload_overwrite_packet hfits
      rw [hread]
      dsimp only
      rw [List.countP_cons_of_pos rfl, List.flatMap_cons, hpayload, hpayloads]
      refine ⟨hafter, ?_⟩
      change p.payload ++ (p.remaining.drop p.payloadBytes).take _ = _
      rw [Nat.succ_mul, Nat.add_comm (_ * _), List.take_add]
      rfl

/-! ### The packet of a number -/

/-- **The packet of a given number**, of audio in pieces of `size` bytes, as it is read. -/
structure Numbered (pcm : Bytes) (size : Nat) (type : UInt8) (source : UInt32) (number : Nat)
    (packet : Packet) : Prop where
  version : packet.header.version = 2
  unpadded : packet.header.padding = false
  /-- the sequence number counts packets -/
  sequence : packet.header.sequence.toNat = number % 65536
  /-- the timestamp counts the samples of so many packets -/
  timestamp : packet.header.timestamp.toNat = number * (size / 2) % 4294967296
  /-- which is where the first sample stands, if no sample is cut in two -/
  sample : size % 2 = 0 → packet.header.timestamp.toNat = number * size / 2 % 4294967296
  ssrc : packet.header.ssrc = source
  /-- the payload type has seven bits, and the eighth is taken for the marker -/
  payloadType : packet.header.payloadType.toNat = type.toNat % 128
  marker : packet.header.marker = true ↔ 128 ≤ type.toNat
  sources : packet.header.sources = []
  /-- the one extension element is the level of the payload -/
  extension : ∃ block, packet.header.extension = some block ∧ block.profile = oneByteProfile ∧
    block.elements = [⟨audioLevelId, [UInt8.ofNat (Level.ofPayload packet.payload)]⟩]
  payload : packet.payload = (pcm.drop (number * size)).take size

/-- **The next packet after so many** is the one of that number. -/
theorem numbered_after (pcm : Bytes) (payloadBytes : Nat) (payloadType : UInt8) (ssrc : UInt32)
    (number : Nat) (hmore : number * max payloadBytes sampleBytes ≤ pcm.length) :
    Numbered pcm (max payloadBytes sampleBytes) payloadType ssrc number
      ⟨((new pcm payloadBytes payloadType ssrc).after number).readHeader,
        ((new pcm payloadBytes payloadType ssrc).after number).payload⟩ := by
  obtain ⟨p, hp⟩ : ∃ p, new pcm payloadBytes payloadType ssrc = p := ⟨_, rfl⟩
  obtain ⟨size, hsize⟩ : ∃ size, max payloadBytes sampleBytes = size := ⟨_, rfl⟩
  obtain ⟨hremaining, hbytes, htype, hssrc⟩ := p.after_fields number
  have hstart : p.remaining = pcm ∧ p.payloadBytes = size ∧ p.payloadType = payloadType ∧
      p.ssrc = ssrc ∧ p.sequence = 0 ∧ p.timestamp = 0 := by
    rw [← hp, ← hsize]
    exact ⟨rfl, rfl, rfl, rfl, rfl, rfl⟩
  obtain ⟨hpcm, hsize', htype', hssrc', hsequence, htimestamp⟩ := hstart
  have hcount := p.sequence_after number
  have hsamples := p.timestamp_after number (by rw [hpcm, hsize', ← hsize]; exact hmore)
  rw [hpcm, hsize'] at hremaining
  rw [hsize'] at hbytes hsamples
  rw [htype'] at htype
  rw [hsequence, UInt16.zero_add] at hcount
  rw [htimestamp, UInt32.zero_add] at hsamples
  obtain ⟨q, hq⟩ : ∃ q, p.after number = q := ⟨_, rfl⟩
  rw [hq] at hremaining hbytes htype hssrc hcount hsamples
  have htime : q.readHeader.timestamp.toNat = number * (size / 2) % 4294967296 := by
    change q.timestamp.toNat = _
    rw [hsamples, UInt32.toNat_ofNat']
    rfl
  rw [hp, hsize, hq]
  refine ⟨rfl, rfl, ?_, htime, fun heven => ?_, hssrc.trans hssrc', ?_, ?_, rfl,
    ⟨_, rfl, rfl, rfl⟩, ?_⟩
  · change q.sequence.toNat = _
    rw [hcount, UInt16.toNat_ofNat']
  · rw [htime, Nat.mul_div_assoc _ (Nat.dvd_of_mod_eq_zero heven)]
  · change (q.payloadType % 128).toNat = _
    rw [UInt8.toNat_mod, htype]
    rfl
  · change (q.payloadType.toNat / 128 == 1) = true ↔ _
    have hbyte := payloadType.toNat_lt
    rw [htype, beq_iff_eq]
    omega
  · change q.remaining.take q.payloadBytes = _
    rw [hremaining, hbytes]

/-- **Every piece exactly once, whatever the buffers.** After any reads of a packetizer, `i` of which were
answered with a packet,

* the payloads handed out are the first `i` pieces of the audio;
* where that is all of it, and only there, the next read finds the packetizer closed;
* otherwise there is a next packet, that of the number `i`: a read into a buffer that is too small fails
  and changes neither the packetizer nor the buffer, and one into any other buffer writes it to the start
  of it.
-/
theorem serve_in_sequence (pcm : Bytes) (payloadBytes : Nat) (payloadType : UInt8) (ssrc : UInt32)
    (requests : List Request) :
    ∃ (served : List Served) (p : Packetizer) (i size : Nat),
      (new pcm payloadBytes payloadType ssrc).serve requests = (served, p) ∧
      served.countP Served.answered = i ∧ max payloadBytes 2 = size ∧
      served.flatMap Served.payload = pcm.take (i * size) ∧
      (∀ attributes buffer, (p.read attributes buffer).1 = .error .closed ↔
        served.flatMap Served.payload = pcm) ∧
      (served.flatMap Served.payload = pcm → ∀ attributes buffer,
        p.read attributes buffer = (.error .closed, buffer, p)) ∧
      (served.flatMap Served.payload ≠ pcm → ∃ data packet,
        Packet.decode data = .ok packet ∧ Numbered pcm size payloadType ssrc i packet ∧
        ∀ attributes buffer,
          (buffer.size < data.length → p.read attributes buffer =
            (.error (.other (doesNotFit data.length buffer.size)), buffer, p)) ∧
          (data.length ≤ buffer.size → ∃ p', p.read attributes buffer =
            (.ok ⟨data.length, attributes⟩, buffer.overwrite data, p'))) := by
  obtain ⟨hafter, hpayloads⟩ := serve_eq requests (new pcm payloadBytes payloadType ssrc)
  rcases hserve : (new pcm payloadBytes payloadType ssrc).serve requests with ⟨served, p⟩
  rw [hserve] at hafter hpayloads
  change served.flatMap Served.payload = pcm.take (_ * max payloadBytes 2) at hpayloads
  dsimp only at hafter
  obtain ⟨i, hi⟩ : ∃ i, served.countP Served.answered = i := ⟨_, rfl⟩
  obtain ⟨size, hsize⟩ : ∃ size, max payloadBytes 2 = size := ⟨_, rfl⟩
  rw [hi] at hafter
  rw [hi, hsize] at hpayloads
  -- the packetizer is at the end exactly if the payloads are all of the audio
  have hremaining : p.remaining = pcm.drop (i * size) := by
    rw [hafter, ((new pcm payloadBytes payloadType ssrc).after_fields i).1, ← hsize]
    rfl
  have hend : p.remaining = [] ↔ served.flatMap Served.payload = pcm := by
    rw [hremaining, hpayloads, List.drop_eq_nil_iff, List.take_eq_self_iff]
  refine ⟨served, p, i, size, rfl, hi, hsize, hpayloads, fun attributes buffer => ?_,
    fun hall attributes buffer => read_of_nil (hend.2 hall), fun hsome => ?_⟩
  · rw [← hend]
    rcases p.read_cases attributes buffer with ⟨hnil, hread⟩ | ⟨hne, -, hread⟩ | ⟨hne, -, hread⟩
    · exact iff_of_true (by rw [hread]) hnil
    · refine iff_of_false ?_ hne
      rw [hread]
      exact fun h => nomatch h
    · refine iff_of_false ?_ hne
      rw [hread]
      exact fun h => nomatch h
  · have hne := mt hend.1 hsome
    have hmore : i * size ≤ pcm.length := by
      rw [hremaining, List.drop_eq_nil_iff] at hne
      omega
    have hnumbered := numbered_after pcm payloadBytes payloadType ssrc i (hsize ▸ hmore)
    rw [← hafter] at hnumbered
    change Numbered pcm (max payloadBytes 2) payloadType ssrc i _ at hnumbered
    rw [hsize] at hnumbered
    refine ⟨p.packet, _, p.decode_packet, hnumbered, fun attributes buffer => ⟨fun hsmall => ?_,
      fun hfits => ⟨p.advance, read_of_fits hne hfits⟩⟩⟩
    rcases p.read_cases attributes buffer with ⟨hnil, -⟩ | ⟨-, -, hread⟩ | ⟨-, hfits, -⟩
    · exact absurd hnil hne
    · exact hread
    · exact absurd hfits (Nat.not_le.2 hsmall)

end Packetizer

end NoiseFilter
