import Medley.FileSystem
import Medley.Store.Basic
import Medley.Text.Blank
import Medley.Text.Percent

/-!
# Stores in files

A store that keeps every record in a file of its own, in a directory for each namespace, and the
name of the active playlist in a file beside them.  Files are called by the names of the collections
in percent encoding.
-/

namespace Medley

/-- A store in a directory. -/
structure FileStore where
  /-- The path of the directory. -/
  root : String
  files : FileSystem

namespace FileStore

/-- The name of the file with the name of the active playlist. -/
def activeFile : String := "active_playlist"

/-- What messages call the store. -/
def name (store : FileStore) : String := "File store in " ++ store.root

/-- The directory of the store. -/
def directory (store : FileStore) : List String := pathSteps store.root

/-- The directory of a namespace. -/
def spaceDirectory (store : FileStore) (space : Namespace) : List String :=
  store.directory ++ [space.name]

/-- The file of a record. -/
def recordFile (store : FileStore) (address : Address) : List String :=
  store.spaceDirectory address.space ++ [Text.percentEncode address.name]

/-- The file with the name of the active playlist. -/
def activePath (store : FileStore) : List String := store.directory ++ [activeFile]

/-- The failure to read something. -/
def unreadable {α : Type} (store : FileStore) (what reason : String) : Except Error α :=
  fail (.unreadable what store.name reason)

/-- The text of a file. -/
def readText (store : FileStore) (what : String) (path : List String) : Except Error String :=
  match store.files.read path with
  | .error fault => store.unreadable what fault.text
  | .ok content =>
      match Text.ofBytes content with
      | .ok text => .ok text
      | .error _ => store.unreadable what "stream did not contain valid UTF-8"

/-- Change the files of the store. -/
def change (what : String) (action : FileAction Unit) : Storing FileStore Unit := fun store =>
  let (result, files) := action.run store.files
  (match result with
    | .ok () => .ok ()
    | .error fault => fail (.unwritable what store.name fault.text),
    { store with files })

/-- The directory that a file is in.  A path that ends in a step that stays where it is counts as
the path before that step. -/
def parent (path : List String) : List String :=
  if path.getLast? ∈ [some "", some "."] then path.dropLast.dropLast else path.dropLast

/-- Write a text to a file, in a directory that is made unless it is there. -/
def writeText (what : String) (path : List String) (text : String) : Storing FileStore Unit :=
  change what do
    FileSystem.makeDirectories (parent path)
    FileSystem.write path text.toUTF8

/-- Remove a file if something is there. -/
def removeFile (what : String) (path : List String) : Storing FileStore Unit :=
  change what do
    if (← get).contains path then FileSystem.removeFile path

/-- The name that a file name in percent encoding stands for. -/
def decodeName (store : FileStore) (fileName : String) : Except Error String :=
  match Text.percentDecode fileName with
  | .ok name => .ok name
  | .error fault => store.unreadable fileName fault.text

/-- The names of a namespace that have a file. -/
def list (store : FileStore) (space : Namespace) : Except Error (List String) :=
  let path := store.spaceDirectory space
  if store.files.contains path then
    match store.files.fileNames path with
    | .error fault => store.unreadable space.name fault.text
    | .ok fileNames => do
        let names ← fileNames.mapM store.decodeName
        return names.mergeSort fun left right => (compare left right).isLE
  else .ok []

/-- The record at an address. -/
def get (store : FileStore) (address : Address) : Except Error String :=
  let path := store.recordFile address
  if store.files.contains path then store.readText address.render path else address.notFound

/-- The name in the file of the active playlist: its first line without blanks at its ends. -/
def getActive (store : FileStore) : Except Error (Option String) := do
  if store.files.contains store.activePath then
    let text ← store.readText activeFile store.activePath
    let name := Text.trim (String.ofList (text.toList.takeWhile (· != '\n')))
    return if name.isEmpty then none else some name
  else return none

instance : RecordStore FileStore where
  name := name
  isPersistent _ := true
  list := list
  get := get
  set address record := do
    writeText address.render ((← MonadState.get).recordFile address) record
  remove address := do removeFile address.render ((← MonadState.get).recordFile address)
  getActive := getActive
  setActive name := do
    let path := (← MonadState.get).activePath
    match name with
    | some name => writeText activeFile path (name ++ "\n")
    | none => removeFile activeFile path

end FileStore

end Medley
