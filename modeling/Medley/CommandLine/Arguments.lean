import Medley.CommandLine.Command

/-!
# Arguments

How the arguments of the program read.  Options may stand in front of the verb and behind it, and what
stands behind it wins.  Two hyphens end the options, and so does the first word that a parameter for
all the rest takes.
-/

namespace Medley.CommandLine

/-- Why arguments make no sense. -/
inductive UsageFault where
  | missingVerb
  | unknownVerb (word : String)
  /-- Some words of a verb are missing. -/
  | missingWords (verb : String)
  | unexpectedWord (word : String)
  | unknownOption (argument : String)
  | missingValue (option : String)
  | unexpectedValue (option : String)
  | repeatedOption (option : String)
  deriving DecidableEq, Repr

/-- The fault in words. -/
def UsageFault.message : UsageFault → String
  | missingVerb => "a command is required"
  | unknownVerb word => "unrecognized command '" ++ word ++ "'"
  | missingWords verb => "the command '" ++ verb ++ "' requires more arguments"
  | unexpectedWord word => "unexpected argument '" ++ word ++ "'"
  | unknownOption argument => "unexpected option '" ++ argument ++ "'"
  | missingValue option => "the option '--" ++ option ++ "' requires a value"
  | unexpectedValue option => "the option '--" ++ option ++ "' takes no value"
  | repeatedOption option => "the option '--" ++ option ++ "' is given more than once"

/-- The options that take a value. -/
inductive PathOption where
  | config
  | storage
  deriving DecidableEq, Repr

namespace PathOption

/-- Both options. -/
def all : List PathOption := [.config, .storage]

/-- The name of an option. -/
def name : PathOption → String
  | .config => "config"
  | .storage => "storage"

/-- The option with a name. -/
def ofName? (name : String) : Option PathOption := all.find? fun option => option.name == name

end PathOption

/-- The options of a run. -/
structure Options where
  /-- The file with the configuration. -/
  config : Option String := none
  /-- Where collections are kept, whatever the configuration says. -/
  storage : Option String := none
  /-- Whether hidden names are listed. -/
  all : Bool := false
  deriving DecidableEq, Repr

namespace Options

/-- The value of an option. -/
def get? (options : Options) : PathOption → Option String
  | .config => options.config
  | .storage => options.storage

/-- The options with a value for one that has none yet. -/
def set (options : Options) (option : PathOption) (value : String) : Except UsageFault Options :=
  if (options.get? option).isSome then .error (.repeatedOption option.name)
  else match option with
    | .config => .ok { options with config := some value }
    | .storage => .ok { options with storage := some value }

/-- Options behind a verb together with those in front of it. -/
def overriding (inner outer : Options) : Options :=
  { config := inner.config.or outer.config
    storage := inner.storage.or outer.storage
    all := inner.all || outer.all }

end Options

/-- What help can be asked for. -/
inductive Topic where
  | program
  | command (verb : Verb)
  /-- Help itself. -/
  | help

/-- The word that asks for help. -/
def helpWord : String := "help"

/-- What arguments ask for. -/
inductive Request where
  | help (topic : Topic)
  | run (options : Options) (command : Command)

/-- The form of an argument. -/
inductive Form where
  | word
  /-- Two hyphens alone. -/
  | terminator
  | long (name : String) (value : Option String)
  | short (letters : List Char)
  deriving DecidableEq, Repr

/-- The form of an argument; a hyphen alone is a word. -/
def Form.of (argument : String) : Form :=
  match argument.toList with
  | ['-', '-'] => .terminator
  | '-' :: '-' :: rest =>
      .long (String.ofList (rest.takeWhile (· != '=')))
        ((rest.dropWhile (· != '=')).tail?.map String.ofList)
  | ['-'] => .word
  | '-' :: letters => .short letters
  | _ => .word

/-- What has been read in front of the verb, or behind it. -/
structure Section where
  verb : Option Verb := none
  options : Options := {}
  /-- The words behind the verb. -/
  words : List String := []
  /-- The option whose value comes next. -/
  pending : Option PathOption := none
  /-- Whether the options have ended. -/
  isLiteral : Bool := false

namespace Section

/-- The topic that a flag for help is about. -/
def topic (taken : Section) : Topic := taken.verb.elim .program .command

/-- The parameter that takes the next word. -/
def parameter? (taken : Section) : Option Parameter :=
  taken.verb.bind (·.parameterAt? taken.words.length)

/-- Whether the next word may look like an option. -/
def takesAnything (taken : Section) : Bool := taken.parameter?.any Parameter.isRest

/-- Read a word. -/
def addWord (taken : Section) (word : String) : Except UsageFault Section :=
  match taken.verb, taken.parameter? with
  | none, _ => .error (.unknownVerb word)
  | some _, none => .error (.unexpectedWord word)
  | some _, some parameter =>
      if parameter.accepts word then
        .ok { taken with
          words := taken.words ++ [word]
          isLiteral := taken.isLiteral || parameter.isRest }
      else .error (.unexpectedWord word)

/-- Read the value of the pending option, or else a word. -/
def addValue (taken : Section) (value : String) : Except UsageFault Section :=
  match taken.pending with
  | some option => do
      return { taken with options := ← taken.options.set option value, pending := none }
  | none => taken.addWord value

/-- Nothing, unless an option waits for its value. -/
def settled (taken : Section) : Except UsageFault Unit :=
  match taken.pending with
  | some option => .error (.missingValue option.name)
  | none => .ok ()

/-- Read a flag, which takes no value. -/
def flag {α : Type} (taken : Section) (name : String) (value : Option String) (result : α) :
    Except UsageFault α := do
  taken.settled
  if value.isSome then throw (.unexpectedValue name)
  return result

/-- Read an argument that looks like an option but is none. -/
def addStrange (taken : Section) (argument : String) : Except UsageFault Section :=
  if taken.takesAnything then taken.addValue argument else .error (.unknownOption argument)

/-- Read an argument; there is nothing more to read if it asks for help. -/
def add (taken : Section) (argument : String) : Except UsageFault (Option Section) :=
  if taken.isLiteral then some <$> taken.addWord argument
  else match Form.of argument with
    | .word => some <$> taken.addValue argument
    | .terminator => do
        taken.settled
        return some { taken with isLiteral := true }
    | .long "help" value => taken.flag "help" value none
    | .long "all" value =>
        if taken.options.all then .error (.repeatedOption "all")
        else taken.flag "all" value (some { taken with options.all := true })
    | .long name value =>
        match PathOption.ofName? name, value with
        | some option, some value => do
            taken.settled
            return some { taken with options := ← taken.options.set option value }
        | some option, none => do
            taken.settled
            return some { taken with pending := some option }
        | none, _ => some <$> taken.addStrange argument
    | .short letters =>
        if letters.head? = some 'h' ∧ (letters.all (· == 'h') ∨ !taken.takesAnything) then
          taken.flag "help" none none
        else some <$> taken.addStrange argument

/-- Whether a verb can come next. -/
def awaitsVerb (taken : Section) : Bool :=
  taken.verb.isNone && taken.pending.isNone && !taken.isLiteral

/-- What everything read so far asks for, with the options in front of the verb. -/
def finish (taken : Section) (outer : Options) : Except UsageFault Request := do
  taken.settled
  match taken.verb with
  | none => throw .missingVerb
  | some verb =>
      match verb.command? taken.words with
      | some command => return .run (taken.options.overriding outer) command
      | none => throw (.missingWords verb.name)

end Section

/-- The topic that the words behind the one for help are about. -/
def readTopic : List String → Except UsageFault Topic
  | [] => .ok .program
  | [word] =>
      if word = helpWord then .ok .help
      else (Verb.ofWord? word).elim (.error (.unknownVerb word)) fun verb => .ok (.command verb)
  | _ :: word :: _ => .error (.unknownVerb word)

/-- What the rest of the arguments asks for. -/
def readFrom (outer : Options) (taken : Section) : List String → Except UsageFault Request
  | [] => taken.finish outer
  | argument :: rest =>
      match taken.awaitsVerb, Verb.ofWord? argument with
      | true, some verb => readFrom taken.options { verb := some verb } rest
      | awaitsVerb, _ =>
          if awaitsVerb && argument == helpWord then (readTopic rest).map .help
          else
            match taken.add argument with
            | .ok (some taken) => readFrom outer taken rest
            | .ok none => .ok (.help taken.topic)
            | .error fault => .error fault

/-- What the arguments of the program ask for. -/
def read (arguments : List String) : Except UsageFault Request := readFrom {} {} arguments

end Medley.CommandLine
