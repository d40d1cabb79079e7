import Medley.Node

/-!
# Stored collections

Collections live in numbered slots, and the names of each namespace point to slots; names that
share a slot are aliases of one collection.  A slot that loses its last name is emptied and its
number is used again.  The active playlist is a name of its own that shares its slot with the
playlist it stands for.
-/

namespace Medley

/-- The name in the namespace of playlists that stands for the active one. -/
def activeName : String := "_active"

/-- Names and the handles they point to. -/
abbrev Names := SortedMap String Handle

/-- The stored collections and their names. -/
structure State where
  slots : List (Option Node) := []
  /-- Numbers of empty slots, the next one to be used first. -/
  free : List Nat := []
  collections : Names := ∅
  playlists : Names := ∅

namespace State

/-- The names of a namespace. -/
def names (state : State) : Namespace → Names
  | .collections => state.collections
  | .playlists => state.playlists

/-- The state with the names of a namespace replaced. -/
def setNames (state : State) (space : Namespace) (names : Names) : State :=
  match space with
  | .collections => { state with collections := names }
  | .playlists => { state with playlists := names }

@[simp] theorem names_setNames_self (state : State) (space : Namespace) (names : Names) :
    (state.setNames space names).names space = names := by
  cases space <;> rfl

theorem names_setNames_of_ne (state : State) {space other : Namespace} (different : other ≠ space)
    (names : Names) : (state.setNames space names).names other = state.names other := by
  cases space <;> cases other <;> first | rfl | exact absurd rfl different

@[simp] theorem slots_setNames (state : State) (space : Namespace) (names : Names) :
    (state.setNames space names).slots = state.slots := by
  cases space <;> rfl

@[simp] theorem free_setNames (state : State) (space : Namespace) (names : Names) :
    (state.setNames space names).free = state.free := by
  cases space <;> rfl

/-- The handle that an address points to. -/
def lookup (state : State) (address : Address) : Option Handle :=
  (state.names address.space).get? address.name

/-- The collection at a handle. -/
def resolve (state : State) (handle : Handle) : Option Node := (state.slots[handle.index]?).join

/-- The collection at an address. -/
def get? (state : State) (address : Address) : Option Node :=
  (state.lookup address).bind state.resolve

/-- The handle that a reference leads to: its link if a collection is there, else what its address
points to. -/
def follow (state : State) (link : Option Handle) (address : Address) : Option Handle :=
  (link.filter fun handle => (state.resolve handle).isSome).or (state.lookup address)

/-- The names of a namespace that point to a handle. -/
def aliases (state : State) (handle : Handle) (space : Namespace) : List String :=
  ((state.names space).entries.filter fun entry => entry.2 == handle).map Prod.fst

/-- The playlist that the active one shares its collection with. -/
def activeTarget (state : State) : Option String := do
  let handle ← state.lookup ⟨.playlists, activeName⟩
  (state.aliases handle .playlists).find? fun name => name != activeName

/-- Make a name point to a handle. -/
def point (state : State) (address : Address) (handle : Handle) : State :=
  state.setNames address.space ((state.names address.space).insert address.name handle)

/-- Drop a name. -/
def unname (state : State) (address : Address) : State :=
  state.setNames address.space ((state.names address.space).erase address.name)

/-- Whether some name points to a handle. -/
def isNamed (state : State) (handle : Handle) : Bool :=
  Namespace.all.any fun space => (state.names space).values.contains handle

/-- Put a collection into a slot, an empty one if there is any. -/
def allocate (state : State) (node : Node) : Handle × State :=
  match state.free with
  | index :: rest =>
      (⟨index⟩, { state with slots := state.slots.set index (some node), free := rest })
  | [] => (⟨state.slots.length⟩, { state with slots := state.slots ++ [some node] })

/-- Put a collection into the slot of a handle. -/
def replace (state : State) (handle : Handle) (node : Node) : State :=
  { state with slots := state.slots.set handle.index (some node) }

/-- Empty the slot of a handle unless a name still points to it. -/
def release (state : State) (handle : Handle) : State :=
  if state.isNamed handle then state
  else if (state.resolve handle).isSome then
    { state with
      slots := state.slots.set handle.index none
      free := handle.index :: state.free }
  else state

/-- Make a name point to a handle and release the handle that it pointed to before. -/
def repoint (state : State) (address : Address) (handle : Handle) : State :=
  let next := state.point address handle
  match state.lookup address with
  | some old => next.release old
  | none => next

/-- Store a collection under a name, in place of what the name pointed to. -/
def insert (state : State) (address : Address) (node : Node) : State :=
  let (handle, next) := state.allocate node
  next.repoint address handle

/-- Drop all names of a namespace and the collections that have no other name. -/
def clear (state : State) (space : Namespace) : State :=
  (state.names space).values.foldl release (state.setNames space ∅)

/-- The state with every stored collection replaced by its image. -/
def mapRoots (state : State) (image : Node → Node) : State :=
  { state with slots := state.slots.map (Option.map image) }

@[simp] theorem names_mapRoots (state : State) (image : Node → Node) (space : Namespace) :
    (state.mapRoots image).names space = state.names space := by
  cases space <;> rfl

@[simp] theorem resolve_mapRoots (state : State) (image : Node → Node) (handle : Handle) :
    (state.mapRoots image).resolve handle = (state.resolve handle).map image := by
  simp only [resolve, mapRoots, List.getElem?_map]
  cases state.slots[handle.index]? <;> rfl

end State

end Medley
