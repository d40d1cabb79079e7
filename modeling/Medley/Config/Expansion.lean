import Medley.Config.Basic
import Medley.Error

/-!
# Variables in settings

A text may refer to variables of the environment as `${NAME}`.  Expansion goes through the text once
from left to right, so a value is never searched for references itself.
-/

namespace Medley

/-- The values of the variables that are set. -/
abbrev Environment := String → Option String

/-- Why the variables of a text cannot be expanded. -/
inductive ExpansionFault where
  /-- A reference has no end; the text is named. -/
  | unclosed (text : String)
  /-- A variable has no value. -/
  | unset (name : String)
  deriving DecidableEq, Repr

/-- The fault in words. -/
def ExpansionFault.message : ExpansionFault → String
  | unclosed text => "'$\x7b' without closing '\x7d' in '" ++ text ++ "'"
  | unset name => "environment variable " ++ name ++ " is not set"

/-- Expand the rest of a text.  Inside a reference the characters of its name so far are known, the
last one first. -/
def expandFrom (environment : Environment) (text : String) :
    Option (List Char) → List Char → Except ExpansionFault (List Char)
  | none, [] => .ok []
  | none, '$' :: '\x7b' :: rest => expandFrom environment text (some []) rest
  | none, char :: rest => (expandFrom environment text none rest).map (char :: ·)
  | some _, [] => .error (.unclosed text)
  | some taken, char :: rest =>
      if char = '\x7d' then
        let name := String.ofList taken.reverse
        match environment name with
        | none => .error (.unset name)
        | some value => (expandFrom environment text none rest).map (value.toList ++ ·)
      else expandFrom environment text (some (char :: taken)) rest

/-- A text with every reference to a variable replaced by its value. -/
def expand (environment : Environment) (text : String) : Except ExpansionFault String :=
  (expandFrom environment text none text.toList).map String.ofList

/-- The configuration with the variables in its storage path expanded. -/
def Config.expand (environment : Environment) (config : Config) : Except Error Config :=
  match config.storagePath with
  | none => .ok config
  | some path =>
      match Medley.expand environment path with
      | .ok expanded => .ok { config with storagePath := some expanded }
      | .error fault => fail (.badConfiguration Setting.storagePath fault.message)

end Medley
