import Medley.Config.Basic
import Medley.Json.Written
import Medley.Yaml.Written

/-!
# The written forms of a configuration

A configuration as a JSON value, and as a YAML text.
-/

namespace Medley

namespace Config

/-- The configuration as a JSON value. -/
def toJson (config : Config) : Json := Json.ofMembers [
  (Setting.storagePath, Json.ofOption Json.ofText config.storagePath),
  (Setting.defaultBaseField, Json.ofText config.defaultBaseField),
  (Setting.autofilterFields, .list (config.autofilterFields.map Json.ofText)),
  (Setting.persistence, Json.ofText config.persistence.name),
  (Setting.syncDelay, Json.ofInteger config.syncDelay.toNat),
  (Setting.createDefaultPlaylist, .bool config.createDefaultPlaylist)]

/-- The configuration as YAML. -/
def toYaml (config : Config) : String :=
  let entry (name value : String) : String := name ++ ": " ++ value ++ "\n"
  entry Setting.storagePath (config.storagePath.elim "null" Yaml.writeScalar) ++
  entry Setting.defaultBaseField (Yaml.writeScalar config.defaultBaseField) ++
  (if config.autofilterFields.isEmpty then entry Setting.autofilterFields "[]"
    else Setting.autofilterFields ++ ":\n" ++
      String.join (config.autofilterFields.map fun field =>
        "- " ++ Yaml.writeScalar field ++ "\n")) ++
  entry Setting.persistence config.persistence.name ++
  entry Setting.syncDelay (Text.writeUInt64 config.syncDelay) ++
  entry Setting.createDefaultPlaylist (Json.writeBool config.createDefaultPlaylist)

end Config

end Medley
