import Medley.Namespace

/-!
# Stores of records

A store keeps a text for every stored collection and the name of the active playlist.  Calls that
change a store may fail, and a failed call leaves what it did until then, so such a call answers with
the store afterwards whether it succeeds or not.
-/

namespace Medley

/-- Calls that may change a store and may fail. -/
abbrev Storing (σ : Type) := ExceptT Error (StateM σ)

/-- What a registry asks of the store behind it. -/
class RecordStore (σ : Type) where
  /-- What messages call the store. -/
  name : σ → String
  /-- Whether anything is kept at all. -/
  isPersistent : σ → Bool
  /-- The names of a namespace that have a record, in ascending order. -/
  list : σ → Namespace → Except Error (List String)
  /-- The record at an address. -/
  get : σ → Address → Except Error String
  /-- Store a record, in place of the one that was there. -/
  set : Address → String → Storing σ Unit
  /-- Remove the record at an address, if there is one. -/
  remove : Address → Storing σ Unit
  /-- The name of the active playlist. -/
  getActive : σ → Except Error (Option String)
  /-- Set or remove the name of the active playlist. -/
  setActive : Option String → Storing σ Unit

/-- An address as messages name it. -/
def Address.render (address : Address) : String := address.space.name ++ "/" ++ address.name

/-- The failure of looking for a collection that is not there. -/
def Address.notFound {α : Type} (address : Address) : Except Error α :=
  fail (.collectionNotFound address.name address.space.name)

/-- The store of a registry that is not told where to keep anything. -/
structure NoStore where
  deriving DecidableEq, Repr

namespace NoStore

/-- What messages call the store. -/
def name : String := "Collection store"

/-- Refuse to do something. -/
def refuse (what : String) : Storing NoStore Unit :=
  throw { cause := .notSupported (what ++ " is not supported by " ++ name) }

instance : RecordStore NoStore where
  name _ := name
  isPersistent _ := false
  list _ _ := .ok []
  get _ address := address.notFound
  set address _ := refuse ("Storing " ++ address.render)
  remove address := refuse ("Removing " ++ address.render)
  getActive _ := .ok none
  setActive _ := refuse "Active playlist"

end NoStore

end Medley
