import NoiseFilter.Configuration.Basic
import NoiseFilter.Replay.Packetizer
import NoiseFilter.Replay.Sink
import NoiseFilter.Stream.Binding

/-!
# Replays

A replay sends recorded audio through a filter as if it came in live: a packetizer makes packets of it,
a stream bound for them filters them, and the payloads of what comes out go to a sink. At the end the
bytes that still wait in the filter follow, so that no audio is missing.
-/

namespace NoiseFilter

open Rtp

namespace Replay

/-- What a replay reports when it is through. -/
structure Summary where
  packets : Nat
  bytesIn : Nat
  bytesOut : Nat
  filtered : Bool
  counters : Counters
deriving DecidableEq, Repr

/-- **How a replay fails.** -/
inductive Error
  /-- the packetizer failed -/
  | source (why : TransportError)
  /-- what came out of the stream is no packet -/
  | unreadable (what : Malformation)
  /-- the sink took no more -/
  | sinkFull
  /-- no answer at all -/
  | aborted
deriving DecidableEq, Repr

/-- The failure to report, unless there was no answer at all. -/
def Error.failure? : Error → Option Failure
  | source why => some (why.toFailure.within "Packet source failed")
  | unreadable what => some (.root ("Filter produced an invalid packet: " ++ what.message))
  | sinkFull => some (.root "sink full")
  | aborted => none

/-- What is known of the stream that a packetizer makes. -/
def info (c : Configuration) : StreamInfo :=
  ⟨c.ssrc, c.payloadType, [⟨Packetizer.audioLevelId, audioLevelUri⟩]⟩

variable {pool engine : Type}

/-- The stream at the end of the audio, with the number of packets and of their bytes. -/
structure Passage (engine : Type) where
  stream : Stream engine
  packets : Nat
  bytesOut : Nat

/-- **Packet by packet** until the audio ends, with the passage so far. -/
def forward (k : Backend pool engine) (source : Packetizer) (p : pool) (buffer : Buffer)
    (so : Passage engine) (sink : Sink) : Except Error (Passage engine) × Sink :=
  match _h : source.read [] buffer with
  | (.error .closed, _, _) => (.ok so, sink)
  | (.error why, _, _) => (.error (.source why), sink)
  | (.ok d, buffer, rest) =>
    match so.stream.read k p (.ok d) buffer with
    | (⟨.aborted, _, _, _⟩, _, _) => (.error .aborted, sink)
    | (⟨.failed why, _, _, _⟩, _, _) => (.error (.source why), sink)
    | (⟨.delivered d, buffer, _, _⟩, stream, p) =>
      match Packet.decode (buffer.take d.length) with
      | .error .overrun => (.error .aborted, sink)
      | .error (.malformed what) => (.error (.unreadable what), sink)
      | .ok packet =>
        match sink.write packet.payload with
        | (false, sink) => (.error .sinkFull, sink)
        | (true, sink) =>
          forward k rest p buffer
            ⟨stream, so.packets + 1, so.bytesOut + packet.payload.length⟩ sink
termination_by source.remaining.length
decreasing_by exact Packetizer.remaining_lt_of_read _h

/-- **A whole replay**: the summary, or how it failed, and the sink either way. A read buffer larger
than any object in memory can be is no buffer. -/
def run (k : Backend pool engine) (p : pool) (pcm : Bytes) (c : Configuration) (sink : Sink) :
    Except Error Summary × Sink :=
  if Configuration.memoryLimit < c.bufferBytes then (.error .aborted, sink)
  else
    let source := Packetizer.new pcm c.payloadBytes c.payloadType c.ssrc
    let stream := Stream.bind (info c) c.filter
    match forward k source p (.blank c.bufferBytes) ⟨stream, 0, 0⟩ sink with
    | (.error why, sink) => (.error why, sink)
    | (.ok through, sink) =>
      match through.stream with
      | .plain => (.ok ⟨through.packets, pcm.length, through.bytesOut, false, .zero⟩, sink)
      | .filtered f =>
        let tail := f.drain.1
        match sink.write tail with
        | (false, sink) => (.error .sinkFull, sink)
        | (true, sink) =>
          (.ok ⟨through.packets, pcm.length, through.bytesOut + tail.length, true, f.counters⟩, sink)

end Replay

end NoiseFilter
