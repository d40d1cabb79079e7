import Medley.SortedMap
import Medley.Text.Split

/-!
# A file system as a value

Files and directories under one root, held by their places.  A path is a list of steps: names, and
the steps `.` and `..`, where an empty step, as a slash at the end leaves it, is one that stays where
it is.  A path starts at the root if its first step is empty, as a slash at the start leaves it, and
otherwise at the working directory.  Operations fail as they do on Linux, and a failed operation keeps
what it did before.
-/

namespace Medley

/-- What a place holds. -/
inductive FileEntry where
  | directory
  | file (content : ByteArray)

/-- Why an operation on files fails. -/
inductive FileFault where
  | notFound
  | exists
  | notDirectory
  | isDirectory
  | nameTooLong
  deriving DecidableEq, Repr

/-- The fault in words. -/
def FileFault.text : FileFault → String
  | notFound => "No such file or directory (os error 2)"
  | «exists» => "File exists (os error 17)"
  | notDirectory => "Not a directory (os error 20)"
  | isDirectory => "Is a directory (os error 21)"
  | nameTooLong => "File name too long (os error 36)"

/-- The names that lead from the root to a place. -/
abbrev Place := List String

/-- Files and directories. -/
structure FileSystem where
  /-- What each place except the root holds. -/
  entries : SortedMap Place FileEntry := ∅
  workingDirectory : Place := []

/-- Operations that may change files and may fail. -/
abbrev FileAction := ExceptT FileFault (StateM FileSystem)

/-- The steps of a path; the empty path has none. -/
def pathSteps (path : String) : List String :=
  if path.isEmpty then [] else (Text.splitAll '/' path.toList).map String.ofList

/-- The number of bytes that a name may have. -/
def nameLimit : Nat := 255

/-- The place that a step leads to from a directory. -/
def Place.step (place : Place) (name : String) : Except FileFault Place :=
  if name = "" ∨ name = "." then .ok place
  else if name = ".." then .ok place.dropLast
  else if name.utf8ByteSize > nameLimit then .error .nameTooLong
  else .ok (place ++ [name])

namespace FileSystem

/-- What a place holds; the root is a directory. -/
def get? (files : FileSystem) (place : Place) : Option FileEntry :=
  if place.isEmpty then some .directory else files.entries.get? place

/-- The place that steps lead to from a place; every place on the way must be a directory. -/
def locateFrom (files : FileSystem) (place : Place) : List String → Except FileFault Place
  | [] => .ok place
  | name :: rest =>
      match files.get? place with
      | none => .error .notFound
      | some (.file _) => .error .notDirectory
      | some .directory => do files.locateFrom (← place.step name) rest

/-- The place that a path starts at. -/
def start (files : FileSystem) (path : List String) : Place :=
  if path.head? = some "" then [] else files.workingDirectory

/-- The place that a path leads to, which may hold nothing. -/
def locate (files : FileSystem) (path : List String) : Except FileFault Place :=
  files.locateFrom (files.start path) path

/-- What a path leads to. -/
def find (files : FileSystem) (path : List String) : Except FileFault FileEntry := do
  match files.get? (← files.locate path) with
  | some entry => return entry
  | none => throw .notFound

/-- Whether a path leads to something. -/
def contains (files : FileSystem) (path : List String) : Bool := (files.find path).isOk

/-- The content of the file at a path. -/
def read (files : FileSystem) (path : List String) : Except FileFault ByteArray := do
  match ← files.find path with
  | .file content => return content
  | .directory => throw .isDirectory

/-- The names of the files in the directory at a path, in ascending order. -/
def fileNames (files : FileSystem) (path : List String) : Except FileFault (List String) := do
  match ← files.find path with
  | .file _ => throw .notDirectory
  | .directory =>
      let place ← files.locate path
      return files.entries.entries.filterMap fun (other, entry) =>
        match entry with
        | .directory => none
        | .file _ => if other.dropLast = place then other.getLast? else none

/-- Let a place hold something. -/
def put (files : FileSystem) (place : Place) (entry : FileEntry) : FileSystem :=
  { files with entries := files.entries.insert place entry }

/-- Let a place, and all places below it, hold nothing. -/
def clear (files : FileSystem) (place : Place) : FileSystem :=
  { files with entries := files.entries.filter fun other _ => !place.isPrefixOf other }

/-- Make the directories that steps lead through from a directory. -/
def makeDirectoriesFrom (place : Place) : List String → FileAction Unit
  | [] => pure ()
  | name :: rest => do
      let next ← (place.step name : Except FileFault Place)
      match (← get).get? next with
      | some .directory => pure ()
      | some (.file _) => throw (if rest.isEmpty then .exists else .notDirectory)
      | none => modify (·.put next .directory)
      makeDirectoriesFrom next rest

/-- Make a directory and all directories above it, unless they are there. -/
def makeDirectories (path : List String) : FileAction Unit := do
  makeDirectoriesFrom ((← get).start path) path

/-- Write a file, in place of the content that it had. -/
def write (path : List String) (content : ByteArray) : FileAction Unit := do
  if path.getLast? = some "" then
    let _ ← ((← get).locate path.dropLast : Except FileFault Place)
    throw .isDirectory
  let place ← ((← get).locate path : Except FileFault Place)
  match (← get).get? place with
  | some .directory => throw .isDirectory
  | _ => modify (·.put place (.file content))

/-- Remove a file. -/
def removeFile (path : List String) : FileAction Unit := do
  let _ ← ((← get).read path : Except FileFault ByteArray)
  let place ← ((← get).locate path : Except FileFault Place)
  modify fun files => { files with entries := files.entries.erase place }

end FileSystem

end Medley
