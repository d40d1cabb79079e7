import Medley.CommandLine.Run

/-!
# The program

Runs the command line over the files of the machine.  The part of them that a run can look at is
loaded before it, and what the run changed there is written back.
-/

namespace Medley.CommandLine

/-- The path to a place. -/
def pathTo (place : Place) : String := "/" ++ "/".intercalate place

/-- What the machine has at a path. -/
def entryAt (path : String) : IO (Option FileEntry) := do
  try
    let real ← IO.FS.realPath path
    if ← real.isDir then return some .directory
    return some (.file (← IO.FS.readBinFile real))
  catch _ => return none

/-- The names in a directory of the machine. -/
def namesIn (path : String) : IO (List String) := do
  try
    let entries ← (← IO.FS.realPath path).readDir
    return entries.toList.map fun entry => entry.fileName
  catch _ => return []

/-- Load what is at a path, with the directories that lead there. -/
def load (files : FileSystem) (path : List String) : IO FileSystem :=
  (List.range (path.length + 1)).foldlM (fun files count => do
    match files.locate (path.take count) with
    | .error _ => return files
    | .ok place =>
        if place.isEmpty then return files
        match ← entryAt (pathTo place) with
        | some entry => return files.put place entry
        | none => return files) files

/-- Load a directory with the files in it. -/
def loadAll (files : FileSystem) (path : List String) : IO FileSystem := do
  let files ← load files path
  match files.locate path with
  | .error _ => return files
  | .ok place =>
      (← namesIn (pathTo place)).foldlM (fun files name => load files (path ++ [name])) files

/-- Load a store in files. -/
def loadStore (files : FileSystem) (root : String) : IO FileSystem := do
  let store : FileStore := { root, files }
  let files ← Namespace.all.foldlM
    (fun files space => loadAll files (store.spaceDirectory space)) files
  load files store.activePath

/-- Give values from the environment of the machine to the variables that a text refers to. -/
partial def environmentFor (text : String) (environment : Environment) : IO Environment := do
  match expand environment text with
  | .error (.unset name) =>
      match ← IO.getEnv name with
      | none => return environment
      | some value =>
          environmentFor text fun other =>
            if other = name then some value else environment other
  | _ => return environment

/-- The environment that the configuration in a file refers to. -/
def loadEnvironment (files : FileSystem) (path : String) : IO Environment :=
  let nothing : Environment := fun _ => none
  match files.read (pathSteps path) with
  | .error _ => return nothing
  | .ok content =>
      match (String.fromUTF8? content).bind Config.ofYaml? with
      | none => return nothing
      | some config => environmentFor (config.storagePath.getD "") nothing

/-- Write back what differs from what was loaded. -/
def writeBack (before after : FileSystem) : IO Unit := do
  for (place, entry) in after.entries.entries do
    match before.get? place, entry with
    | some .directory, .directory => pure ()
    | _, .directory => IO.FS.createDirAll (pathTo place)
    | some (.file old), .file new =>
        unless old == new do IO.FS.writeBinFile (pathTo place) new
    | _, .file content => IO.FS.writeBinFile (pathTo place) content
  for (place, _) in before.entries.entries do
    if (after.get? place).isNone then IO.FS.removeFile (pathTo place)

end Medley.CommandLine

open Medley Medley.CommandLine in
/-- Run the program with some arguments. -/
def main (arguments : List String) : IO UInt32 := do
  let here := pathSteps (← IO.FS.realPath ".").toString
  let start : FileSystem := { workingDirectory := here.filter (· ≠ "") }
  let start ← load start here
  let (files, environment) ← match read arguments with
    | .ok (.run options _) => do
        let path := options.config.getD ""
        let files ← load start (pathSteps path)
        let environment ← loadEnvironment files path
        match options.load environment files with
        | .ok { storagePath := some root, .. } =>
            pure (← loadStore files root, environment)
        | _ => pure (files, environment)
    | _ => pure (start, fun _ => none)
  let (outcome, after) := (run "medley" environment arguments).run files
  writeBack files after
  (← IO.getStdout).putStr outcome.output
  (← IO.getStderr).putStr outcome.complaint
  return outcome.code
