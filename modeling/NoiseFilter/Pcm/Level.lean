import NoiseFilter.Pcm.Sample

/-!
# Audio level

The level of a payload is how far its power lies below that of full scale, in whole decibels from 0
(loudest) to 127 (silence). It is computed in floating point numbers of 64 bits, full scale being one, and
**every step is rounded**:

| step | definition |
|---|---|
| the sum of the squares, divided by their number | `Level.meanSquare` |
| the root of that | `Float.sqrt` |
| its decimal logarithm, times minus twenty | `Float.log10` |
| cut off to a whole number, within bounds | `Level.wholeDecibels` |

A payload that lies on a whole number of decibels, or next to one, may so come out a decibel off. All steps are
settled by the format but one: the last bits of a logarithm are left to the platform, so `Float.log10` is some
function from values to values here, and what is proved about levels holds whichever it is.
-/

namespace NoiseFilter.Level

/-- The level of silence, and the lowest one there is. -/
def silence : Nat := 127

/-- **The mean of the squares** of the samples, each rounded sum on to the next. -/
def meanSquare (samples : List Int) : Float :=
  let square (s : Int) : Float := (.ofInt s / 32768) * (.ofInt s / 32768)
  samples.foldl (fun total s => total + square s) 0 / .ofNat samples.length

/-- The whole decibels below full scale, none above it and no more than those of silence. -/
def wholeDecibels (decibels : Float) : Nat :=
  let atLeast := if decibels < 0 then 0 else decibels
  let within := if 127 < atLeast then 127 else atLeast
  within.toUInt8.toNat

/-- **The level of a payload**, every step of it rounded; no power at all is silence, and so are no samples. -/
def ofPayload (payload : Bytes) : Nat :=
  let samples := Sample.read payload
  if samples.isEmpty then silence
  else
    let loudness := (meanSquare samples).sqrt
    if loudness ≤ 0 then silence else wholeDecibels (-20 * loudness.log10)

end NoiseFilter.Level
