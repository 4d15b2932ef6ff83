import NoiseFilter.Stream.Filter

/-!
# Binding streams

A stream is looked at once, when it is bound. It gets a filter when suppression is enabled and its two
ends agreed on the audio level extension, which is what tells speech apart; every other stream is left
alone, and a missing agreement is no error. The filter keeps the settings it was bound with.
-/

namespace NoiseFilter

/-- What becomes of a stream. -/
inductive Route
  | suppress
  | passThrough
deriving DecidableEq, Repr

/-- The name of a route. -/
def Route.name : Route → String
  | suppress => "Suppress"
  | passThrough => "PassThrough"

/-- The extension by which a stream is known to carry audio. -/
def audioLevelUri : String := "urn:ietf:params:rtp-hdrext:ssrc-audio-level"

/-- **The route of a stream.** The id zero stands for no agreement. -/
def StreamInfo.route (info : StreamInfo) (settings : Settings) : Route :=
  if !settings.enabled then .passThrough
  else match info.extensionId? audioLevelUri with
    | some id => if id = 0 then .passThrough else .suppress
    | none => .passThrough

/-- A bound stream: behind a filter, or as it comes. -/
inductive Stream (engine : Type)
  | filtered (filter : Filter engine)
  | plain

namespace Stream

variable {pool engine : Type}

/-- **Binding**: the stream that the settings of this moment make of what is known of it. -/
def bind (info : StreamInfo) (settings : Settings) : Stream engine :=
  match info.route settings with
  | .suppress => .filtered (.new info.ssrc settings)
  | .passThrough => .plain

/-- The record of a binding. -/
def bindNotice (binder : String) (info : StreamInfo) (settings : Settings) : Notice :=
  match info.route settings with
  | .suppress => .filtering binder info settings
  | .passThrough => .passing binder info

/-- The filter of a stream that has one. -/
def filter? : Stream engine → Option (Filter engine)
  | filtered f => some f
  | plain => none

/-- What a transport answered, handed on as it is. -/
def forward (arrival : Arrival) (buffer : Buffer) : Reading :=
  match arrival with
  | .ok d => ⟨.delivered d, buffer, [], []⟩
  | .error why => ⟨.failed why, buffer, [], []⟩

/-- **One read of a bound stream.** -/
def read (k : Backend pool engine) (p : pool) (s : Stream engine) (arrival : Arrival)
    (buffer : Buffer) : Reading × Stream engine × pool :=
  match s with
  | filtered f =>
    let (reading, f, p) := f.read k p arrival buffer
    (reading, filtered f, p)
  | plain => (forward arrival buffer, plain, p)

/-- The bytes that wait, out of a stream that has a filter. -/
def drain : Stream engine → Option Bytes × Stream engine
  | filtered f =>
    let (bytes, f) := f.drain
    (some bytes, filtered f)
  | plain => (none, plain)

end Stream

end NoiseFilter
