import NoiseFilter.Decimal.Layout

/-!
# Settings of a filter

Suppression is off unless it is asked for. The one setting with a range is the voice threshold, a
probability: `Settings.check` accepts exactly the thresholds from zero to one, and so refuses what is
not a number.
-/

namespace NoiseFilter

open Binary Decimal

/-- **The settings of a filter.** -/
structure Settings where
  /-- whether noise is suppressed at all -/
  enabled : Bool
  /-- the speech probability from which a frame is voiced -/
  threshold : Single
  /-- set aside for stronger suppression; kept, and without effect -/
  aggressive : Bool
  /-- whether an incomplete frame waits for the next packet -/
  carryRemainder : Bool
deriving DecidableEq

/-- A threshold outside its range. -/
structure ThresholdError where
  threshold : Single
deriving DecidableEq

/-- The message for a threshold outside its range. -/
def ThresholdError.message (e : ThresholdError) : String :=
  "threshold must be within 0.0..=1.0, got " ++ Layout.plain.text e.threshold

namespace Settings

/-- Suppression off, threshold one half, nothing else set. -/
def default : Settings := ⟨false, .ofRatio false 1 2, false, false⟩

instance : Inhabited Settings := ⟨default⟩

/-- **Whether the threshold is a probability**, from zero to one. -/
def check (s : Settings) : Except ThresholdError Unit :=
  if Value.zero.le s.threshold && s.threshold.le (.ofNat 1) then .ok ()
  else .error ⟨s.threshold⟩

/-- The settings as a log record shows them. -/
def describe (s : Settings) : String :=
  "NoiseFilterConfig \x7b enabled: " ++ toString s.enabled ++
    ", threshold: " ++ Layout.verbose.text s.threshold ++
    ", aggressive: " ++ toString s.aggressive ++
    ", carry_remainder: " ++ toString s.carryRemainder ++ " \x7d"

end Settings

end NoiseFilter
