import NoiseFilter.Command.Run
import NoiseFilter.Engine.Network

/-!
# The program

The outer layer: the disk as a file system, the place of the default configuration, and the command line
of the process. The engines here stand around a network that changes nothing.
-/

namespace NoiseFilter

namespace Disk

/-- The texts of the system's refusals, by code. -/
def errorText (code : UInt32) : String :=
  let text :=
    match code.toNat with
    | 1 => "Operation not permitted"
    | 5 => "Input/output error"
    | 13 => "Permission denied"
    | 22 => "Invalid argument"
    | 26 => "Text file busy"
    | 27 => "File too large"
    | 30 => "Read-only file system"
    | 40 => "Too many levels of symbolic links"
    | _ => "Unknown error"
  text ++ " (os error " ++ toString code ++ ")"

/-- The refusal of a code. -/
def refusal (code : UInt32) : FileError :=
  match code.toNat with
  | 2 => .notFound
  | 17 => .alreadyThere
  | 20 => .notDirectory
  | 21 => .isDirectory
  | 28 => .noSpace
  | 36 => .nameTooLong
  | _ => .other (errorText code)

/-- The code of a system error. -/
def code : IO.Error → UInt32
  | .alreadyExists _ c _ => c
  | .otherError c _ => c
  | .resourceBusy c _ => c
  | .resourceVanished c _ => c
  | .unsupportedOperation c _ => c
  | .hardwareFault c _ => c
  | .unsatisfiedConstraints c _ => c
  | .illegalOperation c _ => c
  | .protocolError c _ => c
  | .timeExpired c _ => c
  | .interrupted _ c _ => c
  | .noFileOrDirectory _ c _ => c
  | .invalidArgument _ c _ => c
  | .permissionDenied _ c _ => c
  | .resourceExhausted _ c _ => c
  | .inappropriateType _ c _ => c
  | .noSuchThing _ c _ => c
  | .unexpectedEof => 5
  | .userError _ => 5

/-- The code of a system error without its sign: some calls report a code as a negative word. -/
def unsignedCode (e : IO.Error) : UInt32 :=
  let c := code e
  if c ≤ 0x7fffffff then c else 0 - c

/-- An action on the disk, its refusal as a value. -/
def attempt {α : Type} (action : IO α) : IO (Except FileError α) := do
  match ← action.toBaseIO with
  | .ok a => pure (.ok a)
  | .error e => pure (.error (refusal (unsignedCode e)))

/-- **The disk as a file system.** -/
def fileSystem : FileSystem IO where
  read path := attempt do return (← IO.FS.readBinFile path).toList
  write path content := attempt (IO.FS.writeBinFile path ⟨content.toArray⟩)
  makeDirectory path := attempt (IO.FS.createDir path)
  isDirectory path := (System.mkFilePath [path]).isDir
  isPresent path := (System.mkFilePath [path]).pathExists

end Disk

/-- The directory for configurations: the one that the environment names, if it names it from the root,
or else the usual one below the home directory. -/
def configDirectory? : IO (Option String) := do
  match ← IO.getEnv "XDG_CONFIG_HOME" with
  | some directory =>
    if directory.startsWith "/" then return some directory else return (← home?)
  | none => home?
where
  home? : IO (Option String) := do
    match ← IO.getEnv "HOME" with
    | some home => return if home.isEmpty then none else some (home ++ "/.config")
    | none => return none

end NoiseFilter

/-- The program: its exit code is that of the command. -/
def main (words : List String) : IO UInt32 := do
  let directory ← NoiseFilter.configDirectory?
  let report ← NoiseFilter.Command.runLine NoiseFilter.Disk.fileSystem
    NoiseFilter.Network.inert.backend () (directory.map NoiseFilter.Configuration.defaultPath) words
  IO.print report.out
  IO.eprint report.err
  return UInt32.ofNat report.code
