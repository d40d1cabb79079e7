import Medley.Registry.Binding
import Medley.Registry.Validation
import Medley.Store.Basic

/-!
# Changes of the stored collections

What it means for the stored collections to save, remove or rename one, and to make a playlist the
active one.  A change checks what it needs and then gives the state afterwards, with references bound
to the collections that they name.
-/

namespace Medley.State

/-- The collection at an address and its handle, or the failure that there is none. -/
def find (state : State) (address : Address) : Except Error (Handle × Node) :=
  match state.lookup address with
  | none => address.notFound
  | some handle =>
      match state.resolve handle with
      | none => address.notFound
      | some tree => .ok (handle, tree)

/-- The handle in a namespace, by the order of its names, of a collection whose root has an
identity. -/
def sharing (state : State) (space : Namespace) (identity : Nat) : Option Handle :=
  (state.names space).values.find? fun handle =>
    (state.resolve handle).map Tree.identity == some identity

/-- Make several names of a namespace point to a handle. -/
def pointAll (state : State) (space : Namespace) (names : List String) (handle : Handle) : State :=
  names.foldl (fun state name => state.point ⟨space, name⟩ handle) state

/-- Store a tree in place of the one at a handle, for all names of a namespace that share it. -/
def overwrite (state : State) (space : Namespace) (old : Handle) (tree : Node) : State :=
  let (new, next) := state.allocate tree
  ((next.pointAll space (next.aliases old space) new).rebind old new).release old

/-- Save a tree at an address.  A tree whose root has the identity of one that is stored in the
namespace takes its place, and the name becomes an alias of it.  Otherwise the tree replaces what the
name points to, for all aliases of the name. -/
def save (state : State) (address : Address) (tree : Node) : Except Error State := do
  state.validate tree (some address)
  let tree := tree.bound state.lookup
  match state.sharing address.space tree.identity with
  | some handle => return ((state.replace handle tree).repoint address handle).bindAll
  | none =>
      match state.lookup address with
      | some old => return state.overwrite address.space old tree
      | none =>
          let (handle, next) := state.allocate tree
          return next.point address handle

/-- Remove a name.  References to it become copies of its collection, which is dropped with its last
name.  A collection that refers to its own name is copied once for each reference, and the copies keep
theirs: a walk that goes on into the copies, as `State.strip` does, need not end there
(`State.stripBelow_eq_none`), whereas this always gives a state. -/
def remove (state : State) (address : Address) : Fresh (Except Error State) :=
  match state.find address with
  | .error error => pure (.error error)
  | .ok (handle, target) => do
      let stripped ← (state.unname address).inlineReferences address target
      return .ok (stripped.release handle).bindAll

/-- Give a name's collection another name that is not in use, and rename the references to it. -/
def rename (state : State) (address : Address) (name : String) : Except Error State :=
  match state.lookup address with
  | none => address.notFound
  | some handle =>
      let target : Address := { address with name }
      if (state.lookup target).isSome then fail (.collectionExists name address.space.name)
      else .ok (((state.unname address).point target handle).renameReferences address name).bindAll

/-- Make a playlist the active one. -/
def activate (state : State) (name : String) : Except Error State :=
  let address : Address := ⟨.playlists, name⟩
  match state.lookup address with
  | none => address.notFound
  | some handle => .ok (state.repoint ⟨.playlists, activeName⟩ handle).bindAll

end Medley.State
