import Medley.CommandLine.Help
import Medley.Config.Reader
import Medley.Config.Written
import Medley.Registry.Queries
import Medley.Registry.Scheduler
import Medley.Store.Either
import Medley.Store.Files

/-!
# Runs of the program

One run restores a registry from its store, does what its arguments ask for, and writes what is still
dirty.  A run is a function of its arguments, of the environment, and of the files that it finds and
leaves.
-/

namespace Medley.CommandLine

/-- What a run shows. -/
structure Outcome where
  /-- 0 if all went well, 1 after an error, and 2 if the arguments make no sense. -/
  code : UInt32 := 0
  /-- What goes to the standard output. -/
  output : String := ""
  /-- What goes to the standard error. -/
  complaint : String := ""
  deriving DecidableEq, Repr

/-- Lines of text, each with its end. -/
def unlines (lines : List String) : String := String.join (lines.map (· ++ "\n"))

/-- The configuration of a run. -/
def Options.load (options : Options) (environment : Environment) (files : FileSystem) :
    Except Error Config := do
  let config ← match options.config with
    | some path => Config.load environment files path
    | none => .ok {}
  return { config with storagePath := options.storage.or config.storagePath }

/-- Whether a name is listed only on request. -/
def isHidden (name : String) : Bool := name.toList.head? == some '_'

/-- Do what a command says.  The answer is what is printed. -/
def Command.perform {σ : Type} [RecordStore σ] (command : Command) (showsHidden : Bool) :
    Call σ String := do
  let registry ← get
  let silently (action : Call σ Unit) : Call σ String := do
    action
    return ""
  match command with
  | .parse pattern =>
      let shape ← (registry.parse pattern : Except Error Shape)
      return unlines [Record.write shape]
  | .compile pattern order =>
      let shape ← (registry.parse pattern : Except Error Shape)
      let tree ← Registry.fresh shape.number
      let query ← (registry.compile tree { order } : Except Error CompiledQuery)
      return unlines [query.sql]
  | .list space =>
      return unlines ((registry.list space).filter fun name => showsHidden || !isHidden name)
  | .print address =>
      let tree ← (registry.get address : Except Error Node)
      return unlines [Record.write tree]
  | .save address pattern => silently do
      let shape ← (registry.parse pattern : Except Error Shape)
      Registry.save address (← Registry.fresh shape.number)
  | .remove address => silently (Registry.remove address)
  | .rename address name => silently (Registry.rename address name)
  | .active => return unlines [← (registry.active : Except Error String)]
  | .activate name => silently (Registry.setActive name)
  | .config => return registry.config.toYaml

/-- Restore a registry, do what a command says, and write what is still dirty after it.  The answer is
what has been printed and whether all of it went well; an error in the end hides one before it. -/
def execute {σ : Type} [RecordStore σ] (command : Command) (showsHidden : Bool) :
    StateM (Registry σ) (String × Except Error Unit) := do
  match ← Registry.restore.run with
  | .error error => return ("", .error error)
  | .ok () =>
      let answer ← (command.perform showsHidden).run
      let stopped ← match (← get).config.persistence with
        | .immediate => pure (.ok ())
        | .deferred => Registry.shutdown.run
      return (answer.toOption.getD "", do
        stopped
        let _ ← answer)

/-- Where a run keeps collections: nowhere, or in a directory. -/
abbrev RunStore := NoStore ⊕ FileStore

/-- The store that a configuration asks for. -/
def RunStore.ofConfig (config : Config) (files : FileSystem) : RunStore :=
  match config.storagePath with
  | some root => .inr { root, files }
  | none => .inl {}

/-- The files behind a store that was made over some files. -/
def RunStore.filesOver (store : RunStore) (files : FileSystem) : FileSystem :=
  match store with
  | .inl _ => files
  | .inr store => store.files

/-- What a command does to the files, and what it shows. -/
def Command.run (command : Command) (options : Options) (environment : Environment) :
    StateM FileSystem Outcome := do
  let files ← get
  match options.load environment files with
  | .error error => return { code := 1, complaint := unlines [error.render] }
  | .ok settings =>
      let registry : Registry RunStore :=
        { config := settings, store := .ofConfig settings files }
      let ((output, result), registry) := (execute command options.all).run registry
      set (registry.store.filesOver files)
      match result with
      | .ok () => return { output }
      | .error error => return { code := 1, output, complaint := unlines [error.render] }

/-- One run of the program, called by a name. -/
def run (program : String) (environment : Environment) (arguments : List String) :
    StateM FileSystem Outcome :=
  match read arguments with
  | .error fault => return { code := 2, complaint := unlines ["error: " ++ fault.message] }
  | .ok (.help topic) => return { output := unlines (topic.lines program) }
  | .ok (.run options command) => command.run options environment

end Medley.CommandLine
