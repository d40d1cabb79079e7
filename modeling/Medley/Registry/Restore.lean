import Medley.Record.Reader
import Medley.Registry.Basic

/-!
# Writing and restoring a registry

A sync writes all namespaces.  A restore reads them back: a namespace is taken over only if all its
records can be read and keep the rules of their kinds.  If one cannot, nothing is written any more, so
that what could not be read is not lost.
-/

namespace Medley

/-- The playlist that a restore makes if there is none. -/
def defaultPlaylist : String := "Default"

/-- The collection in a record at an address. -/
def Record.readAt (address : Address) (record : String) : Except Error Shape :=
  match Record.read address.render record with
  | .error error => .error (error.about address.name address.space.name)
  | .ok shape =>
      match shape.validate with
      | .ok () => .ok shape
      | .error error =>
          let cause : Cause := .malformedRecord address.render (.because error.message)
          .error (({ cause, position := error.position } : Error).about address.name
            address.space.name)

namespace Registry

variable {σ : Type} [RecordStore σ]

/-- The collections of a namespace in a store. -/
def readNamespace (store : σ) (space : Namespace) : Except Error (List (String × Shape)) := do
  let names ← RecordStore.list store space
  names.mapM fun name => do
    let record ← RecordStore.get store ⟨space, name⟩
    return (name, ← Record.readAt ⟨space, name⟩ record)

/-- Store collections under names, on nodes with identities of their own. -/
def insertAll (space : Namespace) (trees : List (String × Shape)) (state : State) : Fresh State :=
  trees.foldlM (fun state (name, shape) => do
    return state.insert ⟨space, name⟩ (← shape.number)) state

/-- Take over a namespace from the store, or stop persisting.  Tells whether it was taken over. -/
def restoreNamespace (space : Namespace) : Call σ Bool := do
  let registry ← MonadState.get
  match readNamespace registry.store space with
  | .ok trees =>
      let state ← fresh (insertAll space trees (registry.state.clear space))
      modify (·.withState state)
      return true
  | .error _ =>
      modify ({ · with isPersisting := false })
      return false

/-- Take over which playlist is active, or stop persisting. -/
def restoreActive : Call σ Unit := modify fun registry =>
  match RecordStore.getActive registry.store with
  | .error _ => { registry with isPersisting := false }
  | .ok none => registry
  | .ok (some name) =>
      match registry.state.lookup ⟨.playlists, name⟩ with
      | some handle =>
          registry.withState (registry.state.point ⟨.playlists, activeName⟩ handle)
      | none => registry

/-- Make the default playlist unless it is there, and make it the active one unless one is.  Tells
whether anything changed. -/
def createDefault (state : State) : Fresh (Bool × State) := do
  let address : Address := ⟨.playlists, defaultPlaylist⟩
  let (created, state) ←
    if (state.lookup address).isSome then pure (false, state)
    else do pure (true, state.insert address (.leaf (← Medley.fresh) { kind := .list .list }))
  match state.lookup ⟨.playlists, activeName⟩, state.lookup address with
  | none, some handle => return (true, state.point ⟨.playlists, activeName⟩ handle)
  | _, _ => return (created, state)

/-- Take over everything from the store. -/
def restore : Call σ Unit := do
  let _ ← restoreNamespace .collections
  if ← restoreNamespace .playlists then restoreActive
  let registry ← MonadState.get
  let (created, state) ←
    if registry.config.createDefaultPlaylist then fresh (createDefault registry.state)
    else pure (false, registry.state)
  modify (·.withState state.bindAll)
  if created then
    match registry.config.persistence with
    | .immediate => persist [.playlists]
    | .deferred => modify (·.markDirty [.playlists])

/-- Write everything to the store. -/
def sync : Call σ Unit := do
  let registry ← MonadState.get
  if RecordStore.isPersistent registry.store then
    if registry.isPersisting then persist Namespace.all
    else throw { cause := .persistenceDisabled }
  modify ({ · with isDirty := fun _ => false })

end Registry

end Medley
