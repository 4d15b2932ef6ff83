import NoiseFilter.Configuration.Document
import NoiseFilter.Engine.Basic
import NoiseFilter.Files.Basic

/-!
# Stored configurations

A configuration is loaded from a path that was given, which then has to be there, or from the default
place, where a missing file means the default configuration. Whatever was loaded has a threshold in
range, or it was not loaded: `Configuration.load` checks it last of all.
-/

namespace NoiseFilter

namespace Configuration

/-- **Why a configuration was not loaded.** -/
inductive LoadError
  | unreadable (path : String) (why : FileError)
  /-- the file is no well-formed text -/
  | notText (path : String)
  | malformed (path : String) (why : Json.Error)
  | invalid (why : ThresholdError)
deriving DecidableEq

/-- The failure to report. -/
def LoadError.failure : LoadError → Failure
  | unreadable path why => ⟨"Failed to read config " ++ path, [why.message]⟩
  | notText path => ⟨"Failed to read config " ++ path, ["stream did not contain valid UTF-8"]⟩
  | malformed path why => ⟨"Failed to parse config " ++ path, [why.message]⟩
  | invalid why => ⟨"Invalid noise filter configuration", [why.message]⟩

/-- **Why a configuration was not saved.** -/
inductive SaveError
  /-- there is no place for it -/
  | noPlace
  /-- a directory above it could not be made -/
  | noDirectory (why : FileError)
  | unwritable (path : String) (why : FileError)
deriving DecidableEq

/-- The failure to report. -/
def SaveError.failure : SaveError → Failure
  | noPlace => .root "Could not determine config directory"
  | noDirectory why => .root why.message
  | unwritable path why => ⟨"Failed to write config " ++ path, [why.message]⟩

/-- The place of the default configuration below the directory for configurations. -/
def defaultPath (directory : String) : String := directory ++ "/rtpdenoise/config.json"

/-- The configuration in the content of a file. -/
def ofContent (path : String) (content : Bytes) : Except LoadError Configuration :=
  if (Json.utf8? content).isNone then .error (.notText path)
  else match parse content with
    | .error e => .error (.malformed path e)
    | .ok c => .ok c

/-- A configuration, if its threshold is in range. -/
def checked (c : Configuration) : Except LoadError Configuration :=
  match c.filter.check with
  | .error e => .error (.invalid e)
  | .ok () => .ok c

/-- The text of a configuration file. -/
def text (c : Configuration) : String := c.toDocument.pretty

variable {m : Type → Type} [Monad m]

/-- The configuration in a file, its threshold not yet checked. -/
def readFile (fs : FileSystem m) (path : String) : m (Except LoadError Configuration) := do
  match ← fs.read path with
  | .error e => pure (.error (.unreadable path e))
  | .ok content => pure (ofContent path content)

/-- **Loading** from the path given, or else from the default place if there is one. -/
def load (fs : FileSystem m) (given place : Option String) : m (Except LoadError Configuration) := do
  let found ← match given, place with
    | some path, _ => readFile fs path
    | none, some path => if ← fs.isPresent path then readFile fs path else pure (.ok default)
    | none, none => pure (.ok default)
  match found with
  | .error e => pure (.error e)
  | .ok c => pure c.checked

/-- **Saving** to the path given, or else to the default place; the path saved to is the result. -/
def save (fs : FileSystem m) (c : Configuration) (given place : Option String) :
    m (Except SaveError String) := do
  match given.or place with
  | none => pure (.error .noPlace)
  | some path =>
    let made ← match Path.parents path with
      | [] => pure (.ok ())
      | directories => fs.makeDirectories directories
    match made with
    | .error e => pure (.error (.noDirectory e))
    | .ok () =>
      match ← fs.write path c.text.toUTF8.toList with
      | .error e => pure (.error (.unwritable path e))
      | .ok () => pure (.ok path)

end Configuration

end NoiseFilter
