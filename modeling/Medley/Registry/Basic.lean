import Medley.Config.Basic
import Medley.Media.Library
import Medley.Record.Written
import Medley.Registry.Change

/-!
# Registries

A registry holds the stored collections together with the store behind them, the media library that
answers queries, and its configuration.  A change either happens and is written, or leaves the stored
collections as they were; when writing is deferred, the changed namespaces count as dirty instead and
a write is requested.
-/

namespace Medley

/-- The collections that a program works with, over a store of some type. -/
structure Registry (σ : Type) where
  config : Config := {}
  library : MediaLibrary := .absent
  store : σ
  state : State := {}
  /-- Whether changes are written: until a restore fails. -/
  isPersisting : Bool := true
  /-- The namespaces with changes that have not been written. -/
  isDirty : Namespace → Bool := fun _ => false
  /-- Whether a write has been requested and not yet begun. -/
  isRequested : Bool := false
  /-- The first identity not yet given to a node. -/
  nextIdentity : Nat := 0

/-- Calls of a registry that may change it and may fail. -/
abbrev Call (σ : Type) := ExceptT Error (StateM (Registry σ))

namespace Registry

variable {σ α : Type}

/-- Give identities to new nodes. -/
def fresh (action : Fresh α) : Call σ α := fun registry =>
  let (value, nextIdentity) := action registry.nextIdentity
  (.ok value, { registry with nextIdentity })

/-- Let the store do something. -/
def onStore (action : Storing σ α) : Call σ α := fun registry =>
  let (result, store) := action.run registry.store
  (result, { registry with store })

/-- The registry with the stored collections replaced. -/
def withState (registry : Registry σ) (state : State) : Registry σ := { registry with state }

/-- The registry with some namespaces marked as dirty and a write requested. -/
def markDirty (registry : Registry σ) (spaces : List Namespace) : Registry σ :=
  { registry with
    isDirty := fun space => registry.isDirty space || spaces.contains space
    isRequested := true }

/-- Whether changes wait to be written. -/
def hasChanges (registry : Registry σ) : Bool := Namespace.all.any registry.isDirty

variable [RecordStore σ]

/-- The names of a namespace that are written as records, with their handles: all but that of the
active playlist, if it is the other name of a playlist. -/
def recordedNames (state : State) (space : Namespace) : List (String × Handle) :=
  (state.names space).entries.filter fun (name, _) =>
    !(space == .playlists && name == activeName && state.activeTarget.isSome)

/-- Write the collection at a handle as a record. -/
def writeRecord (state : State) (address : Address) (handle : Handle) : Storing σ Unit :=
  match state.resolve handle with
  | some tree => RecordStore.set address (Record.write tree)
  | none => throw { cause := .unexpected ("Collection " ++ address.render ++ " has no tree") }

/-- Write a namespace: its records in the order of their names, then remove the records of other
names, and then, for playlists, write which one is active. -/
def writeNamespace (state : State) (space : Namespace) : Storing σ Unit := do
  let names := recordedNames state space
  names.forM fun (name, handle) => writeRecord state ⟨space, name⟩ handle
  let listed ← (RecordStore.list (← get) space : Except Error _)
  let stale := listed.filter fun name => (names.lookup name).isNone
  stale.forM fun name => RecordStore.remove ⟨space, name⟩
  match space with
  | .collections => pure ()
  | .playlists => RecordStore.setActive state.activeTarget

/-- Write namespaces, if the store keeps anything and changes are written at all. -/
def persist (spaces : List Namespace) : Call σ Unit := do
  let registry ← get
  if RecordStore.isPersistent registry.store && registry.isPersisting then
    onStore (spaces.forM (writeNamespace registry.state))

/-- Make a change of some namespaces.  If it fails, or if writing it fails, the stored collections
stay as they were. -/
def change (spaces : List Namespace) (action : State → Fresh (Except Error State)) :
    Call σ Unit := do
  let before := (← get).state
  let state ← (← fresh (action before) : Except Error State)
  modify (·.withState state)
  match (← get).config.persistence with
  | .immediate =>
      tryCatch (persist spaces) fun error => do
        modify (·.withState before)
        throw error
  | .deferred => modify (·.markDirty spaces)

/-- Save a tree under a name. -/
def save (address : Address) (tree : Node) : Call σ Unit :=
  change [address.space] fun state => pure (state.save address tree)

/-- Remove a name. -/
def remove (address : Address) : Call σ Unit :=
  change Namespace.all fun state => state.remove address

/-- Rename a collection. -/
def rename (address : Address) (name : String) : Call σ Unit :=
  change Namespace.all fun state => pure (state.rename address name)

/-- Make a playlist the active one. -/
def setActive (name : String) : Call σ Unit :=
  change [.playlists] fun state => pure (state.activate name)

/-- Link all references. -/
def bindAll : Call σ Unit := modify fun registry => registry.withState registry.state.bindAll

/-- Take all links away. -/
def unbindAll : Call σ Unit := modify fun registry => registry.withState registry.state.unbindAll

omit [RecordStore σ]

/-- The collection at an address, without links.  Its root has the identity of the stored one, so
saving it under another name makes an alias. -/
def get (registry : Registry σ) (address : Address) : Except Error Node :=
  match registry.state.get? address with
  | some tree => .ok tree.unbound
  | none => address.notFound

/-- The names of a namespace. -/
def list (registry : Registry σ) (space : Namespace) : List String :=
  (registry.state.names space).keys

/-- Check a tree, and whether it may be saved at an address. -/
def validate (registry : Registry σ) (tree : Node) (saveAs : Option Address) : Except Error Unit :=
  registry.state.validate tree saveAs

/-- The name of the active playlist; the name that stands for it if no other playlist is meant. -/
def active (registry : Registry σ) : Except Error String :=
  let address : Address := ⟨.playlists, activeName⟩
  match registry.state.lookup address with
  | none => address.notFound
  | some _ => .ok (registry.state.activeTarget.getD activeName)

end Registry

end Medley
