import NoiseFilter.Pcm.Sample

/-!
# Frames

An engine works on frames of 480 samples, ten milliseconds at 48 kHz. A frame comes in two forms, and
its length is part of the type in both:

* `WireFrame` – 960 bytes as they travel;
* `Frame` – 480 values as an engine sees them.

`WireFrame.decode` and `Frame.encode` go between the two forms.
-/

namespace NoiseFilter

open Binary

/-- Samples per second. -/
def sampleRate : Nat := 48000

/-- Bytes of one sample. -/
def sampleBytes : Nat := 2

/-- Samples of one frame. -/
def frameSamples : Nat := 480

/-- Bytes of one frame. -/
def frameBytes : Nat := 960

/-- A frame as it travels. -/
structure WireFrame where
  bytes : Bytes
  length_bytes : bytes.length = frameBytes
deriving DecidableEq

/-- A frame as an engine sees it. -/
structure Frame where
  samples : List Single
  length_samples : samples.length = frameSamples
deriving DecidableEq

namespace Frame

/-- The frame of 480 equal samples. -/
def constant (x : Single) : Frame := ⟨List.replicate frameSamples x, List.length_replicate ..⟩

instance : Inhabited Frame := ⟨constant .zero⟩

/-- A frame with one function applied to every sample. -/
def map (f : Single → Single) (frame : Frame) : Frame :=
  ⟨frame.samples.map f, by rw [List.length_map, frame.length_samples]⟩

/-- A frame backwards. -/
def reverse (frame : Frame) : Frame :=
  ⟨frame.samples.reverse, by rw [List.length_reverse, frame.length_samples]⟩

/-- **Gain**: every sample times one factor. -/
def scale (gain : Single) (frame : Frame) : Frame := frame.map (Value.mul · gain)

/-- The first sample. -/
def first (frame : Frame) : Single := frame.samples.headD .nan

/-- The last sample. -/
def last (frame : Frame) : Single := frame.samples.getLastD .nan

/-- The frame of a run of samples, if it has the length of a frame. -/
def ofSamples? (samples : List Single) : Option Frame :=
  if h : samples.length = frameSamples then some ⟨samples, h⟩ else none

/-- **Encoding**: every sample quantized, in wire form. -/
def encode (frame : Frame) : WireFrame :=
  ⟨Sample.spell (frame.samples.map Sample.quantize), by
    rw [Sample.length_spell, List.length_map, frame.length_samples]; rfl⟩

end Frame

namespace WireFrame

/-- The frame of a byte string, if it has the length of a frame. -/
def ofBytes? (bytes : Bytes) : Option WireFrame :=
  if h : bytes.length = frameBytes then some ⟨bytes, h⟩ else none

/-- The frame of a byte string holds that byte string. -/
theorem bytes_of_ofBytes? {bytes : Bytes} {frame : WireFrame} (h : ofBytes? bytes = some frame) :
    frame.bytes = bytes := by
  unfold ofBytes? at h
  split at h
  · cases h; rfl
  · cases h

/-- A byte string that is no frame has another length. -/
theorem ofBytes?_eq_none {bytes : Bytes} (h : ofBytes? bytes = none) :
    bytes.length ≠ frameBytes := by
  unfold ofBytes? at h
  split at h
  · cases h
  · assumption

/-- **Decoding**: the value of every sample. -/
def decode (frame : WireFrame) : Frame :=
  ⟨(Sample.read frame.bytes).map Sample.value, by
    rw [List.length_map, Sample.length_read, frame.length_bytes]; rfl⟩

end WireFrame

end NoiseFilter
