import NoiseFilter.Pcm.Frame

/-!
# Engines

An engine is asked about one frame at a time, with the threshold at which a speech probability counts
as voice, and answers with a `Verdict` or fails. Engines come out of a pool, and both may have a state
of their own: a `Backend` is the two steps, one that takes an engine from the pool and one that puts a
frame to an engine. Nothing else in this library depends on what an engine does.
-/

namespace NoiseFilter

open Binary

/-- **Why something failed**: the outermost account of it, and the causes behind that, down to the
root. -/
structure Failure where
  outer : String
  causes : List String
deriving DecidableEq, Repr

namespace Failure

/-- A failure with no cause behind it. -/
def root (text : String) : Failure := ⟨text, []⟩

/-- A failure seen from one level further out. -/
def within (context : String) (f : Failure) : Failure := ⟨context, f.outer :: f.causes⟩

/-- The outermost account alone. -/
def message (f : Failure) : String := f.outer

/-- All accounts on one line. -/
def chain (f : Failure) : String := ": ".intercalate (f.outer :: f.causes)

end Failure

/-- **What an engine says about a frame**: the samples to send on, how probably it is speech, and
whether that reaches the threshold it was asked with. -/
structure Verdict where
  samples : Frame
  probability : Single
  voice : Bool
deriving DecidableEq

/-- A source of engines: taking an engine from the pool, and putting a frame to an engine. -/
structure Backend (pool engine : Type) where
  create : pool → Except Failure engine × pool
  process : engine → Frame → Single → Except Failure Verdict × engine

end NoiseFilter
