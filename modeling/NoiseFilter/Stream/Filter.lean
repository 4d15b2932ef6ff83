import NoiseFilter.Rtp.Packet
import NoiseFilter.Stream.Analysis
import NoiseFilter.Stream.Notice

/-!
# The filter of one stream

A filter stands between a transport and its reader. Of every packet that arrives it denoises the
payload, frame by frame, and hands the packet on. The one rule above all others is that a filter never
adds an error: whatever it cannot read, process or write goes on **as it arrived**, and the only errors
a reader sees are the transport's.

A read goes through these stages, each a definition of its own:

* `Filter.start` – the first arrival takes an engine from the pool, once; if there is none the stream
  is degraded for good and everything passes;
* `Filter.receive` – what is no packet passes, and so does a packet with less than a frame of payload
  that nothing waits in front of;
* `Filter.suppress` – the waiting bytes and the payload are cut into frames, and the frames go through
  the engine;
* `Filter.deliver` – the packet is written with its new payload, if it can be and fits;
* `Filter.release` – otherwise bytes that waited must still go out before this packet's: they are
  sent unprocessed in front of its payload, as much as fits, and the rest waits.

The end of a packet that fills no frame is sent on raw, or waits for the next packet where
`Settings.carryRemainder` says so.
-/

namespace NoiseFilter

open Rtp

/-- **The life of a stream's engine**: none yet, one, or none ever. -/
inductive Stage (engine : Type)
  | uninitialized
  | active (state : engine)
  | degraded

/-- The filter of one stream. -/
structure Filter (engine : Type) where
  ssrc : UInt32
  settings : Settings
  stage : Stage engine
  accumulator : Accumulator
  counters : Counters

/-- How a read ends: with a packet in the buffer, with an error of the transport, or not at all. -/
inductive Outcome
  | delivered (what : Delivery)
  | failed (why : TransportError)
  | aborted
deriving DecidableEq, Repr

/-- **All that a read shows**: how it ended, the buffer afterwards, the events on record, and the frames
that were put to the engine. -/
structure Reading where
  outcome : Outcome
  buffer : Buffer
  notices : List Notice
  analyses : List Analysis

namespace Filter

variable {pool engine : Type}

/-- A new filter: no engine, nothing waiting, nothing counted. -/
def new (ssrc : UInt32) (settings : Settings) : Filter engine :=
  ⟨ssrc, settings, .uninitialized, .empty, .zero⟩

/-- The bytes that wait, out of the filter. -/
def drain (f : Filter engine) : Bytes × Filter engine :=
  let (bytes, accumulator) := f.accumulator.take
  (bytes, { f with accumulator })

/-! ### The engine -/

/-- **The first arrival takes an engine.** Later ones find the stage settled. -/
def start (k : Backend pool engine) (p : pool) (f : Filter engine) :
    List Notice × Filter engine × pool :=
  match f.stage with
  | .uninitialized =>
    match k.create p with
    | (.ok e, p) => ([.engineReady f.ssrc], { f with stage := .active e }, p)
    | (.error why, p) => ([.engineMissing f.ssrc why], { f with stage := .degraded }, p)
  | _ => ([], f, p)

/-! ### Frames -/

/-- A payload that went through the engine: the payload to send, the accumulator and the engine
afterwards, and the analyses of its frames. -/
structure Suppression (engine : Type) where
  payload : Bytes
  accumulator : Accumulator
  engine : engine
  analyses : List Analysis

/-- **A payload through the engine.** Waiting bytes and payload are cut into frames. What is left over
waits if that is wanted and there was a frame; otherwise it goes out raw, so that nothing waits behind
a run of short packets. -/
def suppress (k : Backend pool engine) (f : Filter engine) (e : engine) (payload : Bytes) :
    Suppression engine :=
  let (frames, accumulator) := f.accumulator.feed payload
  let (analyses, e) := k.analyse f.settings.threshold e frames
  let output := WireFrame.join (analyses.map Analysis.output)
  if f.settings.carryRemainder && !frames.isEmpty then ⟨output, accumulator, e, analyses⟩
  else
    let (rest, accumulator) := accumulator.take
    ⟨output ++ rest, accumulator, e, analyses⟩

/-! ### Ways out -/

/-- The packet goes on as it arrived, and is counted as passed. -/
def pass (f : Filter engine) (d : Delivery) (buffer : Buffer) : Reading × Filter engine :=
  (⟨.delivered d, buffer, [], []⟩, { f with counters := f.counters.packetPassed })

/-- **Waiting bytes in front of an unprocessed payload.** As much of them as fits goes out in this
packet and the rest waits. Where no packet can be written the waiting bytes are dropped, and the packet
goes on as it arrived. -/
def release (f : Filter engine) (packet : Packet) (carried : Bytes) (d : Delivery)
    (buffer : Buffer) : Reading × Filter engine :=
  let stream := carried ++ packet.payload
  let room := min stream.length (buffer.size - packet.header.size)
  let passed := { f with counters := f.counters.packetPassed }
  let dropped := (⟨.delivered d, buffer, [.dropped f.ssrc carried.length], []⟩, passed)
  match Packet.encode { packet with payload := stream.take room } with
  | .ok data =>
    if data.length ≤ buffer.size then
      (⟨.delivered { d with length := data.length }, buffer.overwrite data, [], []⟩,
        { passed with accumulator := passed.accumulator.restore (stream.drop room) })
    else dropped
  | .error _ => dropped

/-- A processed packet is given up: the accumulator is emptied, and the packet goes on with what had
waited in front of it. -/
def fallBack (f : Filter engine) (packet : Packet) (carried : Bytes) (d : Delivery)
    (buffer : Buffer) : Reading × Filter engine :=
  let f := { f with
    counters := f.counters.fellBack
    accumulator := f.accumulator.clear }
  if carried.isEmpty then f.pass d buffer else f.release packet carried d buffer

/-- **A processed packet into the buffer**, if it can be written and fits. `packet` is as it arrived,
`payload` what it is to carry, `carried` what waited before it. -/
def deliver (f : Filter engine) (packet : Packet) (payload carried : Bytes) (d : Delivery)
    (buffer : Buffer) : Reading × Filter engine :=
  let giveUp (why : Notice) :=
    let (reading, f) := f.fallBack packet carried d buffer
    ({ reading with notices := why :: reading.notices }, f)
  match Packet.encode { packet with payload } with
  | .ok data =>
    if data.length ≤ buffer.size then
      (⟨.delivered { d with length := data.length }, buffer.overwrite data, [], []⟩,
        { f with counters := f.counters.packetSuppressed })
    else giveUp (.oversize f.ssrc data.length buffer.size)
  | .error why => giveUp (.unwritable f.ssrc why)

/-! ### Reading -/

/-- A packet with frames to process. -/
def process (k : Backend pool engine) (f : Filter engine) (e : engine) (packet : Packet)
    (d : Delivery) (buffer : Buffer) : Reading × Filter engine :=
  let carried := f.accumulator.waiting
  let s := f.suppress k e packet.payload
  let f := { f with
    stage := .active s.engine
    accumulator := s.accumulator
    counters := Analysis.tally s.analyses f.counters }
  let (reading, f) := f.deliver packet s.payload carried d buffer
  let failures := (s.analyses.filterMap Analysis.failure?).map (Notice.frameFailed f.ssrc)
  ({ reading with notices := failures ++ reading.notices, analyses := s.analyses }, f)

/-- Whether a payload is too short to be worth a frame: less than a frame of its own, and nothing in
front of it to complete. -/
def isShort (f : Filter engine) (payload : Bytes) : Bool :=
  payload.length < frameBytes && (!f.settings.carryRemainder || f.accumulator.waiting.isEmpty)

/-- **A delivery to a filter with an engine.** -/
def receive (k : Backend pool engine) (f : Filter engine) (e : engine) (d : Delivery)
    (buffer : Buffer) : Reading × Filter engine :=
  match buffer.window? d.length with
  | none => f.pass d buffer
  | some bytes =>
    match Packet.decode bytes with
    | .error .overrun => (⟨.aborted, buffer, [], []⟩, f)
    | .error (.malformed what) =>
      let (reading, f) := f.pass d buffer
      ({ reading with notices := [.unreadable f.ssrc what] }, f)
    | .ok packet =>
      if f.isShort packet.payload then f.pass d buffer else f.process k e packet d buffer

/-- **One read**: what the transport answered, and the buffer as the transport left it. -/
def read (k : Backend pool engine) (p : pool) (f : Filter engine) (arrival : Arrival)
    (buffer : Buffer) : Reading × Filter engine × pool :=
  match arrival with
  | .error why => (⟨.failed why, buffer, [], []⟩, f, p)
  | .ok d =>
    let (notices, f, p) := f.start k p
    let (reading, f) := match f.stage with
      | .active e => f.receive k e d buffer
      | _ => f.pass d buffer
    ({ reading with notices := notices ++ reading.notices }, f, p)

end Filter

end NoiseFilter
