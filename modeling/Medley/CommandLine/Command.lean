import Medley.Namespace

/-!
# Commands

What a user can ask for: the commands, the words by which they are called, and the words that each of
them takes.
-/

namespace Medley.CommandLine

/-- Something that a user asks for. -/
inductive Command where
  /-- Print the collection that a pattern describes. -/
  | parse (pattern : String)
  /-- Print the query of a pattern, in an order. -/
  | compile (pattern : String) (order : List String)
  /-- Print the names of a namespace. -/
  | list (space : Namespace)
  /-- Print a stored collection. -/
  | print (address : Address)
  | save (address : Address) (pattern : String)
  | remove (address : Address)
  | rename (address : Address) (name : String)
  /-- Print the name of the active playlist. -/
  | active
  /-- Make a playlist the active one. -/
  | activate (name : String)
  /-- Print the configuration. -/
  | config
  deriving DecidableEq, Repr

/-- A place for words behind the name of a command. -/
inductive Parameter where
  | required (name : String)
  | optional (name : String)
  /-- The name of a namespace; without it, collections are meant. -/
  | space
  /-- All words that follow, whatever they look like. -/
  | rest (name about : String)
  deriving DecidableEq, Repr

namespace Parameter

/-- Whether a parameter takes all words that follow. -/
def isRest : Parameter → Bool
  | rest _ _ => true
  | _ => false

/-- Whether a parameter takes a word. -/
def accepts (parameter : Parameter) (word : String) : Bool :=
  match parameter with
  | space => (Namespace.ofName? word).isSome
  | _ => true

/-- A parameter as usage lines show it. -/
def usage : Parameter → String
  | required name => "<" ++ name ++ ">"
  | optional name => "[" ++ name ++ "]"
  | space => "[NAMESPACE]"
  | rest name _ => "[" ++ name ++ "]..."

/-- What there is to know about a parameter beyond its name. -/
def about : Parameter → String
  | required _ | optional _ => ""
  | space => "[default: " ++ Namespace.collections.name ++ "]"
  | rest _ about => about

end Parameter

/-- A word that calls for a command. -/
structure Verb where
  name : String
  /-- Another word that does the same. -/
  shortName : Option String := none
  about : String
  parameters : List Parameter := []
  /-- The command that the words behind the verb make, unless some are missing. -/
  command? : List String → Option Command

namespace Verb

/-- The parameter that takes the word at an index. -/
def parameterAt? (verb : Verb) (index : Nat) : Option Parameter :=
  verb.parameters[index]?.or (verb.parameters.getLast?.filter Parameter.isRest)

/-- The namespace that the last words of a command name, which may be left out. -/
def space? : List String → Option Namespace
  | [] => some .collections
  | [name] => Namespace.ofName? name
  | _ => none

/-- The verbs, in the order in which they are explained. -/
def all : List Verb := [
  { name := "parse"
    about := "Print the collection a pattern parses into"
    parameters := [.required "PATTERN"]
    command? := fun
      | [pattern] => some (.parse pattern)
      | _ => none },
  { name := "compile"
    about := "Print the SQL query of a pattern"
    parameters := [.required "PATTERN",
      .rest "ORDER" "Order entries: `field`, `-field`, `id` or `random`"]
    command? := fun
      | pattern :: order => some (.compile pattern order)
      | [] => none },
  { name := "list"
    shortName := some "ls"
    about := "List stored collections"
    parameters := [.space]
    command? := fun words => (space? words).map .list },
  { name := "show"
    about := "Print a stored collection"
    parameters := [.required "NAME", .space]
    command? := fun
      | name :: rest => (space? rest).map fun space => .print ⟨space, name⟩
      | [] => none },
  { name := "save"
    about := "Store a pattern under a name"
    parameters := [.required "NAME", .required "PATTERN", .space]
    command? := fun
      | name :: pattern :: rest => (space? rest).map fun space => .save ⟨space, name⟩ pattern
      | _ => none },
  { name := "remove"
    shortName := some "rm"
    about := "Remove a name"
    parameters := [.required "NAME", .space]
    command? := fun
      | name :: rest => (space? rest).map fun space => .remove ⟨space, name⟩
      | [] => none },
  { name := "rename"
    about := "Rename a collection"
    parameters := [.required "OLD", .required "NEW", .space]
    command? := fun
      | old :: new :: rest => (space? rest).map fun space => .rename ⟨space, old⟩ new
      | _ => none },
  { name := "active"
    about := "Print or set the active playlist"
    parameters := [.optional "NAME"]
    command? := fun
      | [] => some .active
      | [name] => some (.activate name)
      | _ => none },
  { name := "config"
    about := "Print the effective configuration"
    command? := fun
      | [] => some .config
      | _ => none }]

/-- The verb that a word is. -/
def ofWord? (word : String) : Option Verb :=
  all.find? fun verb => verb.name == word || verb.shortName == some word

end Verb

end Medley.CommandLine
