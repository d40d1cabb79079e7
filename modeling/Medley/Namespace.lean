import Medley.Error

/-!
# Namespaces

Collections are stored under names in two namespaces.  Playlists are the collections that play in
a listed order, so only lists of media may be stored there.
-/

namespace Medley

/-- The two sets of names that collections are stored under. -/
inductive Namespace where
  | collections
  | playlists
  deriving DecidableEq, Repr

namespace Namespace

/-- Both namespaces, in the order in which they are written and restored. -/
def all : List Namespace := [.collections, .playlists]

@[simp] theorem mem_all (space : Namespace) : space ∈ all := by cases space <;> decide

/-- The name that references and errors use. -/
def name : Namespace → String
  | .collections => "Collections"
  | .playlists => "Playlists"

/-- The namespace of a name. -/
def ofName? (text : String) : Option Namespace := all.find? fun space => space.name == text

@[simp] theorem ofName?_name (space : Namespace) : ofName? space.name = some space := by
  cases space <;> decide

theorem name_injective {left right : Namespace} (equal : left.name = right.name) : left = right := by
  have same : ofName? left.name = ofName? right.name := congrArg ofName? equal
  simpa using same

/-- The namespace of a name, or the failure that there is none. -/
def read (text : String) : Except Error Namespace :=
  match ofName? text with
  | some space => .ok space
  | none => fail (.unknownNamespace text)

@[simp] theorem read_name (space : Namespace) : read space.name = .ok space := by
  simp [read]

theorem read_eq_ok {text : String} {space : Namespace} :
    read text = .ok space ↔ text = space.name := by
  constructor
  · intro reads
    unfold read at reads
    split at reads
    · next found =>
      obtain rfl := Except.ok.inj reads
      have same := List.find?_some found
      exact (beq_iff_eq.1 same).symm
    · cases reads
  · rintro rfl
    exact read_name space

end Namespace

/-- Where a collection is stored: a namespace, and a name in it. -/
structure Address where
  space : Namespace
  name : String
  deriving DecidableEq, Repr

end Medley
