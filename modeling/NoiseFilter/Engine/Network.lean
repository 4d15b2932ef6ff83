import NoiseFilter.Engine.Basic

/-!
# Engines around a denoising network

A denoising network keeps a state, takes a frame at full scale 32768 and gives back a speech
probability and a frame of that same scale; it knows nothing of thresholds. `Network.backend` makes
engines of it: samples are scaled on the way in and out, a probability that is no finite number fails
the frame, and a frame is voiced when the probability is at least the threshold.
-/

namespace NoiseFilter

open Binary

/-- A denoising network with states in `state`. -/
structure Network (state : Type) where
  start : state
  step : state → Frame → (Single × Frame) × state

namespace Network

variable {state : Type}

/-- Full scale of the network's samples. -/
def scale : Single := .ofNat 32768

/-- The failure of a frame whose probability is no finite number. -/
def notFinite : Failure := .root "RNNoise returned a non-finite VAD probability"

/-- **One frame** through the network. -/
def process (n : Network state) (s : state) (frame : Frame) (threshold : Single) :
    Except Failure Verdict × state :=
  let ((probability, samples), next) := n.step s (frame.scale scale)
  if probability.isFinite then
    (.ok ⟨samples.map (Value.div · scale), probability, threshold.le probability⟩, next)
  else (.error notFinite, next)

/-- Engines around a network, each in a state of its own. Taking one never fails. -/
def backend (n : Network state) : Backend Unit state where
  create _ := (.ok n.start, ())
  process := n.process

/-- The network that hears no speech and changes no sample. -/
def inert : Network Unit where
  start := ()
  step _ frame := ((.zero, frame), ())

end Network

end NoiseFilter
