import Medley.Pattern.Grammar

/-!
# Configurations

What a registry is told at its start: where collections are kept, when changes are written there, and
the fields that patterns and queries fall back on.  Every setting has a default.
-/

namespace Medley

/-- When changes are written to the store. -/
inductive Persistence where
  /-- Before the call that makes a change returns. -/
  | immediate
  /-- Some time after it; until then the changed namespaces count as dirty. -/
  | deferred
  deriving DecidableEq, Repr

namespace Persistence

/-- Both ways. -/
def all : List Persistence := [.immediate, .deferred]

/-- The word for a way. -/
def name : Persistence → String
  | .immediate => "immediate"
  | .deferred => "deferred"

/-- The way that a word names. -/
def ofName? (word : String) : Option Persistence := all.find? fun persistence => persistence.name == word

@[simp] theorem ofName?_name (persistence : Persistence) :
    ofName? persistence.name = some persistence := by
  cases persistence <;> decide

end Persistence

/-- The settings of a registry. -/
structure Config where
  /-- The directory that collections are kept in, if they are kept at all. -/
  storagePath : Option String := none
  /-- The field that queries are based on if no filter provides one. -/
  defaultBaseField : String := "url"
  /-- The fields that a word without a field is searched in. -/
  autofilterFields : List String := Pattern.defaultFields
  persistence : Persistence := .immediate
  /-- How long a deferred write waits for further changes. -/
  syncDelay : UInt64 := 10000
  /-- Whether a playlist is made when there is none. -/
  createDefaultPlaylist : Bool := true
  deriving DecidableEq, Repr

namespace Setting

/-- The setting `storagePath`. -/
abbrev storagePath : String := "storage_path"

/-- The setting `defaultBaseField`. -/
abbrev defaultBaseField : String := "default_base_field"

/-- The setting `autofilterFields`. -/
abbrev autofilterFields : String := "autofilter_fields"

/-- The setting `persistence`. -/
abbrev persistence : String := "persistence"

/-- The setting `syncDelay`, in milliseconds. -/
abbrev syncDelay : String := "sync_delay_ms"

/-- The setting `createDefaultPlaylist`. -/
abbrev createDefaultPlaylist : String := "create_default_playlist"

/-- The names of all settings in their order. -/
def all : List String :=
  [storagePath, defaultBaseField, autofilterFields, persistence, syncDelay, createDefaultPlaylist]

end Setting

end Medley
