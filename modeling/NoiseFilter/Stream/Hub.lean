import NoiseFilter.Settings.Shared
import NoiseFilter.Stream.Binding

/-!
# Hubs

A hub is all the streams of one process: its settings, the binders handed out, and the streams bound by
them, by name. The settings are shared (`Settings.Shared`), and each binder has a handle to them. So one that
was handed out earlier binds by what is published now; a stream is bound with a snapshot, and keeps it.

A binder that is done with a stream puts that on record, and has no more to do with it: the reader belongs to
whoever had the stream bound (`Step.dismiss`). What that one does is another step: the reader may be used
further, or dropped (`Step.forget`).

Traffic of two kinds goes by a hub untouched: control packets (`Step.control`) and packets of local
origin (`Step.write`).
-/

namespace NoiseFilter

/-- **The state of a hub.** -/
structure Hub (pool engine : Type) where
  shared : Settings.Shared
  pool : pool
  binders : List String
  streams : List (String × Stream engine)

/-- What can be done with a hub. `binder` is a binder's number, `name` a stream's name; the answers of
transports and the buffers they left are given with the step. -/
inductive Step
  /-- publish other settings -/
  | update (settings : Settings)
  /-- look at the settings -/
  | settings
  /-- hand out a binder -/
  | binder (id : String)
  /-- bind a stream, in place of any other of its name -/
  | bind (binder : Nat) (name : String) (info : StreamInfo)
  /-- put a filter in front of a stream, whatever is known of it -/
  | attach (name : String) (ssrc : UInt32) (settings : Settings)
  /-- read from a stream -/
  | read (name : String) (arrival : Arrival) (buffer : Buffer)
  /-- read a control packet -/
  | control (arrival : Arrival) (buffer : Buffer)
  /-- write a packet of local origin to a sink that answers `result` -/
  | write (packet : Outgoing) (result : Except TransportError Nat)
  /-- take out the bytes that wait in a stream -/
  | drain (name : String)
  /-- look at a stream -/
  | look (name : String)
  /-- put on record that a binder is done with a stream -/
  | dismiss (binder : Nat) (info : StreamInfo)
  /-- drop the reader of a stream -/
  | forget (name : String)
  /-- dismiss a stream and forget it, both at once -/
  | unbind (binder : Nat) (name : String) (info : StreamInfo)

/-- What a step answers. -/
inductive Answer
  | settings (current : Settings)
  | binder (id : String)
  /-- the ssrc and the settings of the stream's filter, if it has one -/
  | bound (filter : Option (UInt32 × Settings))
  | read (reading : Reading)
  /-- what the sink was handed and what it answered -/
  | wrote (handed : Outgoing) (result : Except TransportError Nat)
  | drained (bytes : Option Bytes)
  | nothing

/-- What a step shows: its answer, and the events on record. -/
structure Shown where
  answer : Answer
  notices : List Notice

namespace Hub

variable {pool engine : Type}

/-- A hub with the given settings, one binder, and no stream. -/
def new (settings : Settings) (p : pool) (binder : String) : Hub pool engine :=
  ⟨(Settings.Shared.new settings).clone, p, [binder], []⟩

/-- The settings published last. -/
def settings (h : Hub pool engine) : Settings := h.shared.current

/-- The stream of a name. -/
def stream? (h : Hub pool engine) (name : String) : Option (Stream engine) := h.streams.lookup name

/-- The streams without that of a name. -/
def erase (h : Hub pool engine) (name : String) : Hub pool engine :=
  { h with streams := h.streams.filter fun entry => entry.1 != name }

/-- A stream under a name, in place of any other. -/
def insert (h : Hub pool engine) (name : String) (s : Stream engine) : Hub pool engine :=
  { h with streams := (name, s) :: (h.erase name).streams }

/-- The id of a binder; one that was never handed out has none. -/
def binderId (h : Hub pool engine) (number : Nat) : String := (h.binders[number]?).getD ""

/-- What is shown where a binder is done with a stream. -/
def dismissal (h : Hub pool engine) (binder : Nat) (info : StreamInfo) : Shown :=
  ⟨.nothing, [.unbound (h.binderId binder) info]⟩

/-- **One step.** -/
def step (k : Backend pool engine) (h : Hub pool engine) : Step → Shown × Hub pool engine
  | .update settings => (⟨.settings settings, []⟩, { h with shared := h.shared.publish settings })
  | .settings => (⟨.settings h.settings, []⟩, { h with shared := h.shared.snapshot })
  | .binder id =>
    (⟨.binder id, []⟩, { h with shared := h.shared.clone, binders := h.binders ++ [id] })
  | .bind binder name info =>
    let s := Stream.bind info h.settings
    (⟨.bound (s.filter?.map fun f => (f.ssrc, f.settings)),
        [Stream.bindNotice (h.binderId binder) info h.settings]⟩,
      { h with shared := h.shared.snapshot }.insert name s)
  | .attach name ssrc settings =>
    (⟨.bound (some (ssrc, settings)), []⟩, h.insert name (.filtered (.new ssrc settings)))
  | .read name arrival buffer =>
    match h.stream? name with
    | none => (⟨.nothing, []⟩, h)
    | some s =>
      let (reading, s, p) := s.read k h.pool arrival buffer
      (⟨.read reading, reading.notices⟩, { h with pool := p }.insert name s)
  | .control arrival buffer => (⟨.read (Stream.forward arrival buffer), []⟩, h)
  | .write packet result => (⟨.wrote packet result, []⟩, h)
  | .drain name =>
    match h.stream? name with
    | none => (⟨.nothing, []⟩, h)
    | some s =>
      let (bytes, s) := s.drain
      (⟨.drained bytes, []⟩, h.insert name s)
  | .look _ => (⟨.nothing, []⟩, h)
  | .dismiss binder info => (h.dismissal binder info, h)
  | .forget name => (⟨.nothing, []⟩, h.erase name)
  | .unbind binder name info => (h.dismissal binder info, h.erase name)

/-- **Steps in order**: what each shows, and the hub at the end. -/
def run (k : Backend pool engine) (h : Hub pool engine) : List Step → List Shown × Hub pool engine
  | [] => ([], h)
  | s :: steps =>
    let (shown, h) := h.step k s
    let (rest, h) := h.run k steps
    (shown :: rest, h)

end Hub

end NoiseFilter
