/-!
# Counters

Each filtered stream counts what became of its packets and of its frames. A packet is suppressed or
passed, and a frame voiced, attenuated or failed; a fallback is a passed packet whose processed form
had to be given up.
-/

namespace NoiseFilter

/-- **What a filter has counted so far.** -/
structure Counters where
  packetsSuppressed : Nat
  packetsPassed : Nat
  framesVoiced : Nat
  framesAttenuated : Nat
  frameErrors : Nat
  fallbacks : Nat
deriving DecidableEq, Repr

namespace Counters

/-- Nothing counted. -/
def zero : Counters := ⟨0, 0, 0, 0, 0, 0⟩

instance : Inhabited Counters := ⟨zero⟩

/-- One suppressed packet more. -/
def packetSuppressed (c : Counters) : Counters :=
  { c with packetsSuppressed := c.packetsSuppressed + 1 }

/-- One passed packet more. -/
def packetPassed (c : Counters) : Counters := { c with packetsPassed := c.packetsPassed + 1 }

/-- One voiced frame more. -/
def frameVoiced (c : Counters) : Counters := { c with framesVoiced := c.framesVoiced + 1 }

/-- One attenuated frame more. -/
def frameAttenuated (c : Counters) : Counters :=
  { c with framesAttenuated := c.framesAttenuated + 1 }

/-- One failed frame more. -/
def frameFailed (c : Counters) : Counters := { c with frameErrors := c.frameErrors + 1 }

/-- One fallback more. -/
def fellBack (c : Counters) : Counters := { c with fallbacks := c.fallbacks + 1 }

end Counters

end NoiseFilter
