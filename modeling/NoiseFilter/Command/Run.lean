import NoiseFilter.Command.Line
import NoiseFilter.Configuration.Storage
import NoiseFilter.Replay.Run

/-!
# Running commands

A command reads and writes files and ends with a `Report`: an exit code and what goes to the two output
streams. Processing a file keeps a strict order, so that nothing is lost to a mistake: the configuration
is loaded and checked, the options are put into it and it is checked again, the input is read, and only
then is the output touched.
-/

namespace NoiseFilter

namespace Command

/-- **How a command ends.** -/
structure Report where
  code : Nat
  out : String
  err : String
deriving DecidableEq, Repr

namespace Report

/-- All went well. -/
def success (out : String) : Report := ⟨0, out, ""⟩

/-- The text of one cause: its first line after a mark, its other lines indented as far. -/
def causeText (number : Option Nat) (text : String) : String :=
  let (mark, indent) := match number with
    | none => ("    ", "    ")
    | some n => (String.ofList (List.replicate (5 - (toString n).length) ' ') ++ toString n ++ ": ",
        "       ")
  mark ++ ("\n" ++ indent).intercalate (text.splitOn "\n")

/-- The causes of a failure, one on a line; several are numbered. -/
def causesText : List String → List String
  | [cause] => [causeText none cause]
  | causes => causes.zipIdx.map fun (cause, n) => causeText (some n) cause

/-- **A failure**, with its causes below it. -/
def failure (f : Failure) : Report :=
  let causes := if f.causes.isEmpty then "" else
    "\n\nCaused by:\n" ++ "\n".intercalate (causesText f.causes)
  ⟨1, "", "Error: " ++ f.outer ++ causes ++ "\n"⟩

/-- The program could not go on. -/
def abort : Report := ⟨101, "", "capacity overflow\n"⟩

/-- A command line that is no command. -/
def stopped : Stop → Report
  | .help => ⟨0, "", ""⟩
  | .misuse => ⟨2, "", ""⟩

end Report

/-! ### Processing a file -/

/-- The configuration with the options put into it. -/
def Processing.override (w : Processing) (c : Configuration) : Configuration :=
  { c with
    filter := { c.filter with
      enabled := c.filter.enabled || w.enable
      threshold := w.threshold.getD c.filter.threshold }
    packetBytes := w.packetBytes.getD c.packetBytes }

/-- Bytes of audio per second. -/
def bytesPerSecond : Nat := sampleRate * sampleBytes

/-- The duration of some bytes of audio in seconds, to two places. It is a value of 64 bits, of which
the two places are taken exactly. -/
def secondsText (bytes : Nat) : String :=
  match (Binary.Value.ofNat bytes : Binary.Double).div (.ofNat bytesPerSecond) with
  | .signed _ magnitude =>
    Decimal.fixed 2 (Binary.Format.double.quanta magnitude) Binary.Format.double.unit
  | .nan => "NaN"

/-- What is told of a replay. -/
def summaryText (s : Replay.Summary) : String :=
  let c := s.counters
  toString s.packets ++ " packets, " ++ secondsText s.bytesIn ++ "s, " ++ toString s.bytesIn ++
    " -> " ++ toString s.bytesOut ++ " bytes (" ++
    (if s.filtered then "filtered" else "passed through") ++ ")\n" ++
  if s.filtered then
    "suppressed " ++ toString c.packetsSuppressed ++ " / passed " ++ toString c.packetsPassed ++
      " packets; frames: " ++ toString c.framesVoiced ++ " voiced, " ++
      toString c.framesAttenuated ++ " attenuated, " ++ toString c.frameErrors ++ " errors; " ++
      toString c.fallbacks ++ " fallbacks\n"
  else ""

variable {m : Type → Type} [Monad m] {pool engine : Type}

/-- **One file into another**, under a configuration that is good. The output is made empty before the
replay, and gets what the replay wrote even where it failed. -/
def replayFile (fs : FileSystem m) (k : Backend pool engine) (p : pool) (w : Processing)
    (c : Configuration) : m Report := do
  match ← fs.read w.input with
  | .error e => pure (.failure ⟨"Failed to read " ++ w.input, [e.message]⟩)
  | .ok pcm =>
    match ← fs.write w.output [] with
    | .error e => pure (.failure ⟨"Failed to create " ++ w.output, [e.message]⟩)
    | .ok () =>
      let (result, sink) := Replay.run k p pcm c .unlimited
      let written ← fs.write w.output sink.toBytes
      match result, written with
      | .error e, _ => pure ((e.failure?.map Report.failure).getD .abort)
      | .ok _, .error e => pure (.failure (.root e.message))
      | .ok s, .ok () => pure (.success (summaryText s))

/-- **A file to process.** `place` is the default place of the configuration. -/
def runProcess (fs : FileSystem m) (k : Backend pool engine) (p : pool) (place : Option String)
    (w : Processing) : m Report := do
  match ← Configuration.load fs w.config place with
  | .error e => pure (.failure e.failure)
  | .ok c =>
    let c := w.override c
    match c.filter.check with
    | .error e => pure (.failure (.root e.message))
    | .ok () => replayFile fs k p w c

/-- **A command.** -/
def run (fs : FileSystem m) (k : Backend pool engine) (p : pool) (place : Option String) :
    Command → m Report
  | .process w => runProcess fs k p place w
  | .showConfig path => do
    match ← Configuration.load fs path place with
    | .error e => pure (.failure e.failure)
    | .ok c => pure (.success (c.text ++ "\n"))
  | .initConfig path => do
    match ← Configuration.save fs .default path place with
    | .error e => pure (.failure e.failure)
    | .ok path => pure (.success ("Wrote default configuration to " ++ path ++ "\n"))

/-- **A command line.** -/
def runLine (fs : FileSystem m) (k : Backend pool engine) (p : pool) (place : Option String)
    (words : List String) : m Report :=
  match read words with
  | .error s => pure (.stopped s)
  | .ok c => run fs k p place c

end Command

end NoiseFilter
