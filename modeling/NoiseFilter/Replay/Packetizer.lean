import NoiseFilter.Pcm.Frame
import NoiseFilter.Pcm.Level
import NoiseFilter.Rtp.Packet
import NoiseFilter.Stream.Transport

/-!
# The packetizer

A packetizer makes a stream of packets out of recorded audio: every read takes the next piece of it,
says in a header extension how loud it is, and numbers it. A packet that does not fit the reader's
buffer is not lost: the packetizer stays where it is. At the end of the audio it is closed.
-/

namespace NoiseFilter

open Rtp

/-- **Audio on its way into packets**: what is left of it, how it is cut and marked, and the numbers of
the next packet. -/
structure Packetizer where
  remaining : Bytes
  payloadBytes : Nat
  payloadType : UInt8
  ssrc : UInt32
  sequence : UInt16
  timestamp : UInt32
  payloadBytes_pos : 0 < payloadBytes
deriving DecidableEq, Repr

namespace Packetizer

/-- The id of the audio level extension in the packets made here. -/
def audioLevelId : UInt8 := 1

/-- A packetizer at the start of its audio. A packet carries at least one sample. -/
def new (pcm : Bytes) (payloadBytes : Nat) (payloadType : UInt8) (ssrc : UInt32) : Packetizer :=
  ⟨pcm, max payloadBytes sampleBytes, payloadType, ssrc, 0, 0,
    Nat.lt_of_lt_of_le (by decide) (Nat.le_max_right ..)⟩

/-- The payload of the next packet. -/
def payload (p : Packetizer) : Bytes := p.remaining.take p.payloadBytes

/-- The header of the next packet. -/
def header (p : Packetizer) : Header where
  version := ⟨2, by decide⟩
  padding := false
  extension := some
    ⟨oneByteProfile, [⟨audioLevelId, [UInt8.ofNat (Level.ofPayload p.payload)]⟩], 0⟩
  marker := false
  payloadType := p.payloadType
  sequence := p.sequence
  timestamp := p.timestamp
  ssrc := p.ssrc
  sources := []

/-- The next packet. -/
def packet (p : Packetizer) : Bytes := p.header.spell ++ p.payload

/-- The packetizer after its next packet. The timestamp counts samples. -/
def advance (p : Packetizer) : Packetizer :=
  { p with
    remaining := p.remaining.drop p.payloadBytes
    sequence := p.sequence + 1
    timestamp := p.timestamp + UInt32.ofNat (p.payload.length / sampleBytes) }

/-- The failure of a packet that does not fit. -/
def doesNotFit (size capacity : Nat) : Failure :=
  .root ("Packet of " ++ toString size ++ " bytes does not fit read buffer of " ++ toString capacity)

/-- **One read.** -/
def read (p : Packetizer) (attributes : Attributes) (buffer : Buffer) :
    Arrival × Buffer × Packetizer :=
  if p.remaining.isEmpty then (.error .closed, buffer, p)
  else
    let packet := p.packet
    if buffer.size < packet.length then
      (.error (.other (doesNotFit packet.length buffer.size)), buffer, p)
    else (.ok ⟨packet.length, attributes⟩, buffer.overwrite packet, p.advance)

/-- Every packet takes something of the audio. -/
theorem remaining_advance_lt (p : Packetizer) (h : p.remaining ≠ []) :
    p.advance.remaining.length < p.remaining.length := by
  have hp := p.payloadBytes_pos
  have hl := List.length_pos_iff.2 h
  simp only [advance, List.length_drop]
  omega

/-- A read that delivers a packet leaves less audio. -/
theorem remaining_lt_of_read {p p' : Packetizer} {attributes : Attributes} {buffer buffer' : Buffer}
    {d : Delivery} (h : p.read attributes buffer = (.ok d, buffer', p')) :
    p'.remaining.length < p.remaining.length := by
  unfold read at h
  split at h
  · simp at h
  · rename_i hne
    dsimp only at h
    split at h
    · simp at h
    · cases h
      exact remaining_advance_lt p (by simpa using hne)

end Packetizer

end NoiseFilter
