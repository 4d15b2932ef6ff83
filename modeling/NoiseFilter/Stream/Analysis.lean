import NoiseFilter.Engine.Basic
import NoiseFilter.Pcm.Accumulator
import NoiseFilter.Stream.Counters

/-!
# Analyses

The frames of a packet go through the engine in order. Each leaves an `Analysis`, the frame with what
the engine said about it, and all that a filter does with a frame is read off its analysis:

| the engine | the bytes sent on, `Analysis.output` | counted as |
|---|---|---|
| heard voice | the engine's samples | voiced |
| heard none | the frame's own samples, a tenth as loud | attenuated |
| failed | the frame's own samples | failed |
-/

namespace NoiseFilter

open Binary

/-- **One frame and what became of it**: the frame as it arrived, the threshold it was judged by, and
the engine's answer. -/
structure Analysis where
  frame : WireFrame
  threshold : Single
  answer : Except Failure Verdict

namespace Analysis

/-- The gain of frames without voice: one tenth. -/
def noiseGain : Single := .ofRatio false 1 10

/-- **What is sent on** for a frame. -/
def output (a : Analysis) : WireFrame :=
  match a.answer with
  | .ok verdict =>
    if verdict.voice then verdict.samples.encode else (a.frame.decode.scale noiseGain).encode
  | .error _ => a.frame.decode.encode

/-- The failure of the engine, where it failed. -/
def failure? (a : Analysis) : Option Failure :=
  match a.answer with
  | .ok _ => none
  | .error why => some why

/-- A frame counted by its outcome. -/
def count (a : Analysis) (c : Counters) : Counters :=
  match a.answer with
  | .ok verdict => if verdict.voice then c.frameVoiced else c.frameAttenuated
  | .error _ => c.frameFailed

/-- Frames counted by their outcomes. -/
def tally (analyses : List Analysis) (c : Counters) : Counters :=
  analyses.foldl (fun c a => a.count c) c

end Analysis

/-- **Frames put to an engine**, first to last: their analyses, and the engine afterwards. -/
def Backend.analyse {pool engine : Type} (k : Backend pool engine) (threshold : Single) :
    engine → List WireFrame → List Analysis × engine
  | e, [] => ([], e)
  | e, frame :: frames =>
    let (answer, e) := k.process e frame.decode threshold
    let (analyses, e) := k.analyse threshold e frames
    (⟨frame, threshold, answer⟩ :: analyses, e)

end NoiseFilter
