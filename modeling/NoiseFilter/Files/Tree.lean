import NoiseFilter.Files.Basic

/-!
# File trees

A file tree is a file system in memory: the entries below a root, and a working directory from which
paths start that do not start at the root. Paths are walked name by name, so a path through something
that is missing or is no directory is refused there.

Beside files and directories a tree can hold devices, which keep nothing of what is written to them.
-/

namespace NoiseFilter

/-- What a path can lead to. -/
inductive Entry
  | file (content : Bytes)
  | directory
  /-- reads as empty and keeps nothing; a full one has no room for anything either -/
  | device (full : Bool)
deriving DecidableEq, Repr

/-- **A file tree**: the names on the way from the root to the working directory, and the entries below
the root by the names on the way there. -/
structure FileTree where
  working : List String
  entries : List (List String × Entry)
deriving DecidableEq, Repr

namespace FileTree

/-- The longest name of an entry, in bytes. -/
def nameLimit : Nat := 255

/-- The longest path, in bytes. -/
def pathLimit : Nat := 4095

/-- What lies at a place; the place with no names is the root itself. -/
def entry? (t : FileTree) (place : List String) : Option Entry :=
  if place.isEmpty then some .directory else t.entries.lookup place

/-- The tree with something at a place. -/
def put (t : FileTree) (place : List String) (e : Entry) : FileTree :=
  { t with entries := (place, e) :: t.entries.filter fun x => x.1 != place }

/-- A tree with nothing but the way to its working directory. -/
def empty (working : List String) : FileTree :=
  ⟨working, (List.range working.length).map fun n => (working.take (n + 1), .directory)⟩

/-- The place that a name leads to from a directory. -/
def step (place : List String) (name : String) : Except FileError (List String) :=
  if name = "." then .ok place
  else if name = ".." then .ok place.dropLast
  else if nameLimit < name.utf8ByteSize then .error .nameTooLong
  else .ok (place ++ [name])

/-- **The way to a place**, name by name. What the last name leads to need not exist; all before it
have to be directories. -/
def walk (t : FileTree) (place : List String) : List String → Except FileError (List String)
  | [] => .ok place
  | [name] => step place name
  | name :: names =>
    match step place name with
    | .error e => .error e
    | .ok next => match t.entry? next with
      | none => .error .notFound
      | some .directory => t.walk next names
      | some _ => .error .notDirectory

/-- The directory that a path starts from. -/
def start (t : FileTree) (path : String) : List String :=
  if path.startsWith "/" then [] else t.working

/-- The names of a path. A path with a slash at its end leads into what it names. -/
def names (path : String) : List String :=
  (path.splitOn "/").filter (· ≠ "") ++ if path.endsWith "/" then ["."] else []

/-- Whether a text can be a path at all. -/
def checkPath (path : String) : Except FileError Unit :=
  if path.contains '\x00' then .error .unnameable
  else if path.isEmpty then .error .notFound
  else if pathLimit < path.utf8ByteSize then .error .nameTooLong
  else .ok ()

/-- **The place of a path.** -/
def place (t : FileTree) (path : String) : Except FileError (List String) :=
  match checkPath path with
  | .error e => .error e
  | .ok () => t.walk (t.start path) (names path)

/-- The entry of a path. -/
def find (t : FileTree) (path : String) : Except FileError Entry :=
  match t.place path with
  | .error e => .error e
  | .ok place => match t.entry? place with
    | none => .error .notFound
    | some e => .ok e

/-- The content of a file. -/
def read (t : FileTree) (path : String) : Except FileError Bytes :=
  match t.find path with
  | .error e => .error e
  | .ok .directory => .error .isDirectory
  | .ok (.file content) => .ok content
  | .ok (.device _) => .ok []

/-- A place with new content. -/
def fill (t : FileTree) (place : List String) (content : Bytes) : Except FileError FileTree :=
  match t.entry? place with
  | some .directory => .error .isDirectory
  | some (.device full) => if full && !content.isEmpty then .error .noSpace else .ok t
  | some (.file _) | none => .ok (t.put place (.file content))

/-- **A file with new content.** A path with a slash at its end cannot name a file to write, whatever its
last name is. -/
def write (t : FileTree) (path : String) (content : Bytes) : Except FileError FileTree :=
  match checkPath path with
  | .error e => .error e
  | .ok () =>
    if path.endsWith "/" then
      match t.walk (t.start path) ((names path).dropLast.dropLast ++ ["."]) with
      | .error e => .error e
      | .ok _ => .error .isDirectory
    else match t.walk (t.start path) (names path) with
      | .error e => .error e
      | .ok place => t.fill place content

/-- A new directory. -/
def makeDirectory (t : FileTree) (path : String) : Except FileError FileTree :=
  match t.place path with
  | .error e => .error e
  | .ok place => match t.entry? place with
    | some _ => .error .alreadyThere
    | none => .ok (t.put place .directory)

/-- A change of the tree that may be refused; a refused one leaves the tree as it is. -/
def change (f : FileTree → Except FileError FileTree) : StateM FileTree (Except FileError Unit) :=
  fun t => match f t with
    | .ok t => (.ok (), t)
    | .error e => (.error e, t)

/-- **A file tree as a file system.** -/
def fileSystem : FileSystem (StateM FileTree) where
  read path := fun t => (t.read path, t)
  write path content := change (·.write path content)
  makeDirectory path := change (·.makeDirectory path)
  isDirectory path := fun t =>
    (match t.find path with
      | .ok .directory => true
      | _ => false, t)
  isPresent path := fun t => ((t.find path).isOk, t)

end FileTree

end NoiseFilter
