import Medley.Error

/-!
# Editing lists of media ids

Edits by index on the ids of a list collection.  An edit that fails says which index is out of range.
Every index is checked before the list is changed.
-/

namespace Medley.IdList

/-- Edits of a list of ids, which may fail. -/
abbrev Edit := ExceptT Error (StateM (List Int64))

/-- The failure of an index outside the list. -/
def outOfRange {α : Type} (index : Nat) : Edit α := do
  throw { cause := .indexOutOfRange index (← get).length }

/-- The id at an index. -/
def entry (index : Nat) : Edit Int64 := do
  match (← get)[index]? with
  | some id => return id
  | none => outOfRange index

/-- Put an id before the entry at an index, or at the end. -/
def insert (index : Nat) (id : Int64) : Edit Unit := do
  if index ≤ (← get).length then modify (·.insertIdx index id) else outOfRange index

/-- Take out the entry at an index. -/
def remove (index : Nat) : Edit Int64 := do
  let id ← entry index
  modify (·.eraseIdx index)
  return id

/-- Put another id at an index. -/
def set (index : Nat) (id : Int64) : Edit Unit := do
  let _ ← entry index
  modify (·.set index id)

/-- Take out the entry at one index and put it back so that it stands at another. -/
def move (source target : Nat) : Edit Unit := do
  let id ← entry source
  let _ ← entry target
  modify (·.eraseIdx source)
  modify (·.insertIdx target id)

end Medley.IdList
