import NoiseFilter.Engine.Basic

/-!
# Scripted engines

A script says in advance how the creation of each engine ends and what every engine does with its
frames, first to last and round again. Scripted engines make a filter's behaviour around its engine
visible: failures, refusals and samples of any value can be had at any point.
-/

namespace NoiseFilter

open Binary

/-- What a scripted engine does with a frame. All but `noise` and `fail` may report voice. -/
inductive Act
  | same
  | gain (factor : Single)
  | bias (offset : Single)
  | fill (sample : Single)
  | reverse
  | invert (probability : Single)
  | noise
  | fail (why : Failure)
deriving DecidableEq

/-- How creations end, in order, and what each engine does with its frames. -/
structure Script where
  creations : List (Option Failure)
  acts : List Act

namespace Act

/-- The value one. -/
def one : Single := .ofNat 1

/-- **The answer** of an act to a frame. -/
def answer (act : Act) (frame : Frame) (threshold : Single) : Except Failure Verdict :=
  match act with
  | same => .ok ⟨frame, one, true⟩
  | gain factor => .ok ⟨frame.scale factor, one, true⟩
  | bias offset => .ok ⟨frame.map (Value.add · offset), one, true⟩
  | fill sample => .ok ⟨.constant sample, one, true⟩
  | reverse => .ok ⟨frame.reverse, one, true⟩
  | invert probability => .ok ⟨frame.map Value.neg, probability, threshold.le probability⟩
  | noise => .ok ⟨.constant one, .zero, false⟩
  | fail why => .error why

end Act

namespace Script

/-- The act for the frame of a given number; without acts every frame stays the same. -/
def act (s : Script) (frame : Nat) : Act := (s.acts[frame % s.acts.length]?).getD .same

/-- How the creation of a given number ends; creations beyond the script succeed. -/
def creation (s : Script) (number : Nat) : Option Failure := (s.creations[number]?).join

/-- **Engines of a script.** The pool counts creations, an engine counts its frames. -/
def backend (s : Script) : Backend Nat Nat where
  create created :=
    (match s.creation created with
      | none => .ok 0
      | some why => .error why, created + 1)
  process frames frame threshold := ((s.act frames).answer frame threshold, frames + 1)

end Script

end NoiseFilter
