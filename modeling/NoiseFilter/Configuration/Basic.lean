import NoiseFilter.Pcm.Frame
import NoiseFilter.Settings.Basic

/-!
# Configuration of a replay

A replay is configured by the settings of its filter and by how audio is cut and marked on its way into
packets. Two sizes follow from the one number that is configured freely, the bytes per packet:

* `Configuration.payloadBytes` – whole samples, at least one;
* `Configuration.bufferBytes` – the read buffer, with room for a header and for a payload that took up
  a frame carried from earlier. Sizes are words of 64 bits, and this one is computed in them: for
  absurdly large packets it wraps round.
-/

namespace NoiseFilter

/-- **What a replay is configured with.** -/
structure Configuration where
  filter : Settings
  packetBytes : UInt64
  payloadType : UInt8
  ssrc : UInt32
deriving DecidableEq

namespace Configuration

/-- Twenty milliseconds of audio per packet. -/
def defaultPacketBytes : UInt64 := 1920

/-- The payload type that most sessions agree on for audio. -/
def defaultPayloadType : UInt8 := 111

/-- The ssrc of generated streams. -/
def defaultSsrc : UInt32 := 0x5eed0001

/-- The configuration where nothing is configured. -/
def default : Configuration := ⟨.default, defaultPacketBytes, defaultPayloadType, defaultSsrc⟩

instance : Inhabited Configuration := ⟨default⟩

/-- **The payload of a packet**: rounded down to whole samples, and at least one. -/
def payloadBytes (c : Configuration) : Nat :=
  max (c.packetBytes.toNat / sampleBytes * sampleBytes) sampleBytes

/-- The size that a word of 64 bits cannot hold. -/
def wordLimit : Nat := 0x10000000000000000

/-- The largest size of any object in memory. -/
def memoryLimit : Nat := 0x7fffffffffffffff

/-- **The size of the read buffer**, as a word of 64 bits. -/
def bufferBytes (c : Configuration) : Nat := (c.payloadBytes * 2 + 256) % wordLimit

end Configuration

end NoiseFilter
