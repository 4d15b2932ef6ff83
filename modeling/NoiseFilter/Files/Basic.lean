import NoiseFilter.Bytes.Words

/-!
# Files

What this library wants of a file system is little: to read a file, to write one anew, to make a
directory, and to ask what there is. `FileSystem` is that, in any monad, so that the same program runs
on a real disk and on a tree in memory. Refusals come as a `FileError`, worded as the operating system
words them.
-/

namespace NoiseFilter

/-- **Why the file system refused.** -/
inductive FileError
  | notFound
  | alreadyThere
  | notDirectory
  | isDirectory
  | nameTooLong
  | noSpace
  /-- a path with a character that ends a path for the system -/
  | unnameable
  /-- any other refusal, in the system's words -/
  | other (text : String)
deriving DecidableEq, Repr

/-- The message of a refusal. -/
def FileError.message : FileError → String
  | notFound => "No such file or directory (os error 2)"
  | alreadyThere => "File exists (os error 17)"
  | notDirectory => "Not a directory (os error 20)"
  | isDirectory => "Is a directory (os error 21)"
  | nameTooLong => "File name too long (os error 36)"
  | noSpace => "No space left on device (os error 28)"
  | unnameable => "file name contained an unexpected NUL byte"
  | other text => text

/-- **A file system.** -/
structure FileSystem (m : Type → Type) where
  read : String → m (Except FileError Bytes)
  /-- empties a file, or makes an empty one, and then writes -/
  write : String → Bytes → m (Except FileError Unit)
  makeDirectory : String → m (Except FileError Unit)
  isDirectory : String → m Bool
  isPresent : String → m Bool

namespace Path

/-- The names on a path, blanks between slashes and single dots left out; a dot in front of a relative
path counts. -/
def names (path : String) : List String :=
  let parts := (path.splitOn "/").filter (· ≠ "")
  match parts with
  | "." :: rest => if path.startsWith "/" then rest.filter (· ≠ ".") else "." :: rest.filter (· ≠ ".")
  | parts => parts.filter (· ≠ ".")

/-- Names as a path. -/
def ofNames (fromRoot : Bool) (names : List String) : String :=
  (if fromRoot then "/" else "") ++ "/".intercalate names

/-- The paths above one, nearest first, given its names backwards. -/
def above (fromRoot : Bool) : List String → List String
  | [] => []
  | _ :: outer => ofNames fromRoot outer.reverse :: above fromRoot outer

/-- **The directories above a path**, the nearest first: for a relative path, up to the empty path. -/
def parents (path : String) : List String :=
  above (path.startsWith "/") (names path).reverse

end Path

namespace FileSystem

variable {m : Type → Type} [Monad m]

/-- The refusal where there is nothing above that could be made. -/
def wholeTree : FileError := .other "failed to create whole tree"

/-- **A directory and all those above it**, the nearest first. A directory that is there already is
good; only a directory that is missing is made after those above it. -/
def makeDirectories (fs : FileSystem m) : List String → m (Except FileError Unit)
  | [] => pure (.error wholeTree)
  | "" :: _ => pure (.ok ())
  | path :: outer => do
    match ← fs.makeDirectory path with
    | .ok () => pure (.ok ())
    | .error .notFound =>
      match ← fs.makeDirectories outer with
      | .error e => pure (.error e)
      | .ok () =>
        match ← fs.makeDirectory path with
        | .ok () => pure (.ok ())
        | .error e => if ← fs.isDirectory path then pure (.ok ()) else pure (.error e)
    | .error e => if ← fs.isDirectory path then pure (.ok ()) else pure (.error e)

end FileSystem

end NoiseFilter
