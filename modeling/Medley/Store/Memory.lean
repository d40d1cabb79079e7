import Medley.SortedMap
import Medley.Store.Basic

/-!
# Stores in memory

A store that keeps its records in two maps.  No call on it fails, except to look for a record that
is not there.
-/

namespace Medley

/-- Records by name. -/
abbrev Records := SortedMap String String

/-- A store that keeps records in memory. -/
structure MemoryStore where
  collections : Records := ∅
  playlists : Records := ∅
  active : Option String := none

namespace MemoryStore

/-- The records of a namespace. -/
def records (store : MemoryStore) : Namespace → Records
  | .collections => store.collections
  | .playlists => store.playlists

/-- The store with the records of a namespace replaced. -/
def setRecords (store : MemoryStore) (space : Namespace) (records : Records) : MemoryStore :=
  match space with
  | .collections => { store with collections := records }
  | .playlists => { store with playlists := records }

@[simp] theorem records_setRecords_self (store : MemoryStore) (space : Namespace)
    (records : Records) : (store.setRecords space records).records space = records := by
  cases space <;> rfl

theorem records_setRecords_of_ne (store : MemoryStore) {space other : Namespace}
    (different : other ≠ space) (records : Records) :
    (store.setRecords space records).records other = store.records other := by
  cases space <;> cases other <;> first | rfl | exact absurd rfl different

@[simp] theorem active_setRecords (store : MemoryStore) (space : Namespace) (records : Records) :
    (store.setRecords space records).active = store.active := by
  cases space <;> rfl

/-- The store with a record put at an address. -/
def insert (store : MemoryStore) (address : Address) (record : String) : MemoryStore :=
  store.setRecords address.space ((store.records address.space).insert address.name record)

/-- The store without the record at an address. -/
def erase (store : MemoryStore) (address : Address) : MemoryStore :=
  store.setRecords address.space ((store.records address.space).erase address.name)

/-- The record at an address. -/
def get? (store : MemoryStore) (address : Address) : Option String :=
  (store.records address.space).get? address.name

instance : RecordStore MemoryStore where
  name _ := "Memory store"
  isPersistent _ := true
  list store space := .ok (store.records space).keys
  get store address := (store.get? address).elim address.notFound .ok
  set address record := modify (·.insert address record)
  remove address := modify (·.erase address)
  getActive store := .ok store.active
  setActive name := modify fun store => { store with active := name }

end MemoryStore

end Medley
