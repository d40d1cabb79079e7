import Medley.Config.Expansion
import Medley.FileSystem
import Medley.Json.Reader
import Medley.Text.Utf8
import Medley.Yaml.Reader

/-!
# Reading configurations

A configuration is a mapping from settings to values, in JSON or in YAML.  Settings that are left out
have their defaults and unknown ones are ignored, but no setting may stand there twice.  A list gives
the first settings in their order.
-/

namespace Medley

/-- How values of a format read as what settings hold. -/
structure SettingReader (ω : Type) where
  text? : ω → Option String
  /-- A text, or nothing. -/
  optionalText? : ω → Option (Option String)
  texts? : ω → Option (List String)
  count? : ω → Option UInt64
  flag? : ω → Option Bool
  persistence? : ω → Option Persistence

namespace Config

variable {ω : Type}

/-- The value of a setting among some entries; `none` if it has a wrong one or more than one. -/
def setting {α : Type} (entries : List (String × ω)) (name : String) (read : ω → Option α)
    (default : α) : Option α :=
  match entries.filter fun entry => entry.1 == name with
  | [] => some default
  | [entry] => read entry.2
  | _ => none

/-- The configuration that some entries describe. -/
def ofEntries? (reader : SettingReader ω) (entries : List (String × ω)) : Option Config := do
  let default : Config := {}
  return {
    storagePath :=
      ← setting entries Setting.storagePath reader.optionalText? default.storagePath
    defaultBaseField :=
      ← setting entries Setting.defaultBaseField reader.text? default.defaultBaseField
    autofilterFields :=
      ← setting entries Setting.autofilterFields reader.texts? default.autofilterFields
    persistence := ← setting entries Setting.persistence reader.persistence? default.persistence
    syncDelay := ← setting entries Setting.syncDelay reader.count? default.syncDelay
    createDefaultPlaylist :=
      ← setting entries Setting.createDefaultPlaylist reader.flag?
          default.createDefaultPlaylist }

/-- The configuration with some values for the first settings. -/
def ofValues? (reader : SettingReader ω) (values : List ω) : Option Config :=
  if values.length ≤ Setting.all.length then ofEntries? reader (Setting.all.zip values) else none

/-- How JSON values read.  A way to persist is its name, or an object with the name as its only key
and nothing as its value. -/
def jsonReader : SettingReader Json where
  text? := Json.toText?
  optionalText? := Json.toOption? Json.toText?
  texts? value := do (← value.toList?).mapM Json.toText?
  count? value :=
    match value with
    | .number digits =>
        if digits.all Char.isDigit then Text.readUInt64? (String.ofList digits) else none
    | _ => none
  flag? := Json.toBool?
  persistence? value :=
    match value with
    | .object [(key, .null)] => (Json.textOf? key).bind Persistence.ofName?
    | value => value.toText?.bind Persistence.ofName?

/-- The configuration that a JSON text describes. -/
def ofJson? (text : String) : Option Config := do
  match ← Json.parse? text with
  | .object members =>
      let entries ← members.mapM fun (key, value) => do return (← Json.textOf? key, value)
      ofEntries? jsonReader entries
  | .list values => ofValues? jsonReader values
  | _ => none

/-- Whether a plain YAML scalar stands for nothing. -/
def isYamlNull (text : String) : Bool := text ∈ ["null", "Null", "NULL", "~"]

/-- The truth value that a plain YAML scalar stands for. -/
def readYamlBool? (text : String) : Option Bool :=
  if text ∈ ["true", "True", "TRUE"] then some true
  else if text ∈ ["false", "False", "FALSE"] then some false
  else none

/-- The number that digits of a base denote if 64 bits hold it. -/
def readBase? (base : Nat) (digits : List Char) : Option UInt64 := do
  if digits.isEmpty then none
  else
    let value ← digits.foldlM (fun value digit => do
      let digit ← Json.readHex? [digit]
      if digit < base then return base * value + digit else none) 0
    if value < UInt64.size then return UInt64.ofNat value else none

/-- Whether digits start with a zero that says nothing. -/
def hasIdleZero (digits : List Char) : Bool :=
  digits.length > 1 && digits.head? == some '0' && digits.all Char.isDigit

/-- The number that digits denote: in decimal without idle zeros, or behind `0x`, `0o` or `0b`. -/
def readYamlDigits? (digits : List Char) : Option UInt64 :=
  let based := match digits with
    | '0' :: 'x' :: rest => readBase? 16 rest
    | '0' :: 'o' :: rest => readBase? 8 rest
    | '0' :: 'b' :: rest => readBase? 2 rest
    | _ => none
  based.or (if hasIdleZero digits then none else readBase? 10 digits)

/-- The natural number that a plain YAML scalar stands for: digits, perhaps behind a plus sign; only
zero may have a minus sign. -/
def readYamlCount? (text : String) : Option UInt64 :=
  match text.toList with
  | '+' :: digits => readYamlDigits? digits
  | '-' :: digits => (readYamlDigits? digits).filter (· == 0)
  | digits => readYamlDigits? digits

/-- The text that a YAML value is; a plain scalar is one whatever it looks like. -/
def yamlText? : Yaml → Option String
  | .scalar text _ => some text
  | _ => none

/-- How YAML values read. -/
def yamlReader : SettingReader Yaml where
  text? := yamlText?
  optionalText? value :=
    match value with
    | .scalar text true => some (if text.isEmpty || isYamlNull text then none else some text)
    | value => (yamlText? value).map some
  texts? value :=
    match value with
    | .list items => items.mapM yamlText?
    | .scalar text true => if text.isEmpty then some [] else none
    | _ => none
  count? value :=
    match value with
    | .scalar text true => readYamlCount? text
    | _ => none
  flag? value :=
    match value with
    | .scalar text true => readYamlBool? text
    | _ => none
  persistence? value := (yamlText? value).bind Persistence.ofName?

/-- The configuration that a YAML text describes; an empty document describes the default one. -/
def ofYaml? (text : String) : Option Config := do
  match ← Yaml.parse? text with
  | .mapping entries => ofEntries? yamlReader entries
  | .list values => ofValues? yamlReader values
  | .scalar text true => if text.isEmpty then return {} else none
  | _ => none

/-- The configuration in a JSON text. -/
def ofJson (text : String) : Except Error Config :=
  match ofJson? text with
  | some config => .ok config
  | none => fail (.unreadableConfiguration .json)

/-- The configuration in a YAML text. -/
def ofYaml (text : String) : Except Error Config :=
  match ofYaml? text with
  | some config => .ok config
  | none => fail (.unreadableConfiguration .yaml)

/-- The configuration in a YAML file, with variables expanded. -/
def load (environment : Environment) (files : FileSystem) (path : String) : Except Error Config := do
  let unreadable (reason : String) : Except Error String :=
    fail (.unreadable path "configuration loader" reason)
  let text ← match files.read (pathSteps path) with
    | .error fault => unreadable fault.text
    | .ok content =>
        match Text.ofBytes content with
        | .ok text => .ok text
        | .error _ => unreadable "stream did not contain valid UTF-8"
  (← ofYaml text).expand environment

end Config

end Medley
