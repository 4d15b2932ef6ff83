import NoiseFilter.Settings.Basic
import NoiseFilter.Rtp.Packet
import NoiseFilter.Stream.Transport

/-!
# Notices

What a filter or a binder does beside its answers is put on record, one `Notice` per event. The event
is data; its level and its wording are two functions of it.
-/

namespace NoiseFilter

/-- How much a record matters. -/
inductive NoticeLevel
  | debug
  | warn
  | error
deriving DecidableEq, Repr

/-- The name of a level. -/
def NoticeLevel.name : NoticeLevel → String
  | debug => "DEBUG"
  | warn => "WARN"
  | error => "ERROR"

/-- **An event on record.** -/
inductive Notice
  /-- the engine of a stream was created -/
  | engineReady (ssrc : UInt32)
  /-- the engine of a stream could not be created -/
  | engineMissing (ssrc : UInt32) (why : Failure)
  /-- the bytes that arrived are no packet -/
  | unreadable (ssrc : UInt32) (what : Rtp.Malformation)
  /-- the engine failed on a frame -/
  | frameFailed (ssrc : UInt32) (why : Failure)
  /-- a processed packet is larger than the buffer -/
  | oversize (ssrc : UInt32) (size capacity : Nat)
  /-- a processed packet could not be written -/
  | unwritable (ssrc : UInt32) (why : Rtp.SizeMismatch)
  /-- waiting bytes were given up -/
  | dropped (ssrc : UInt32) (count : Nat)
  /-- a stream was bound with a filter -/
  | filtering (binder : String) (info : StreamInfo) (settings : Settings)
  /-- a stream was bound without a filter -/
  | passing (binder : String) (info : StreamInfo)
  /-- a stream was unbound -/
  | unbound (binder : String) (info : StreamInfo)
deriving DecidableEq

namespace Notice

/-- The level of an event. -/
def level : Notice → NoticeLevel
  | engineMissing .. | unwritable .. => .error
  | oversize .. | dropped .. => .warn
  | _ => .debug

/-- The wording of an event. -/
def message : Notice → String
  | engineReady ssrc => "Initialized suppression engine for ssrc " ++ toString ssrc
  | engineMissing ssrc why =>
    "Failed to initialize suppression engine for ssrc " ++ toString ssrc ++ ": " ++ why.chain
  | unreadable ssrc what =>
    "Passing through unparseable packet on ssrc " ++ toString ssrc ++ ": " ++ what.message
  | frameFailed ssrc why => "Engine failed on frame for ssrc " ++ toString ssrc ++ ": " ++ why.chain
  | oversize ssrc size capacity =>
    "Processed packet on ssrc " ++ toString ssrc ++ " too large for buffer (" ++ toString size ++
      " > " ++ toString capacity ++ ")"
  | unwritable ssrc why =>
    "Failed to marshal processed packet on ssrc " ++ toString ssrc ++ ": " ++ why.message
  | dropped ssrc count =>
    "Dropping " ++ toString count ++ " carried bytes on ssrc " ++ toString ssrc ++
      " to keep packet order"
  | filtering binder info settings =>
    "[" ++ binder ++ "] applying noise filter to ssrc " ++ toString info.ssrc ++ " (pt " ++
      toString info.payloadType ++ ", " ++ settings.describe ++ ")"
  | passing binder info =>
    "[" ++ binder ++ "] passing through ssrc " ++ toString info.ssrc ++ " (pt " ++
      toString info.payloadType ++ ")"
  | unbound binder info => "[" ++ binder ++ "] unbound ssrc " ++ toString info.ssrc

/-- The event as one line: its level, then its wording. -/
def line (n : Notice) : String := n.level.name ++ " " ++ n.message

end Notice

end NoiseFilter
