import NoiseFilter.Settings.Basic

/-!
# Shared settings

Settings are published in one place that any number of handles lead to. A snapshot is the settings
published last, and stays what it is whatever is published later; a published value is seen through
every handle.
-/

namespace NoiseFilter.Settings

/-- Settings in one place, the number of handles that lead there, and the snapshots taken so far, the
oldest first. -/
structure Shared where
  current : Settings
  handles : Nat
  snapshots : List Settings
deriving DecidableEq

namespace Shared

/-- One handle to the given settings. -/
def new (settings : Settings) : Shared := ⟨settings, 1, []⟩

/-- What is published, through each handle. -/
def views (s : Shared) : List Settings := List.replicate s.handles s.current

/-- One snapshot more. -/
def snapshot (s : Shared) : Shared := { s with snapshots := s.snapshots ++ [s.current] }

/-- Other settings for all handles. -/
def publish (s : Shared) (settings : Settings) : Shared := { s with current := settings }

/-- One handle more to the same place. -/
def clone (s : Shared) : Shared := { s with handles := s.handles + 1 }

end Shared

end NoiseFilter.Settings
