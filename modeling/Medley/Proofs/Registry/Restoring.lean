import Medley.Proofs.Registry.Runs
import Medley.Registry.Restore

/-!
# Runs that write and restore

Besides making changes, a program links and unlinks the references of its registry, writes everything
to the store and takes everything over from it.  Whatever the store holds, only trees that keep the
rules of their kinds are taken over, so the stored collections stay well-formed
(`Registry.wellFormed_performAll`).
-/

namespace Medley

namespace State

variable {state : State} {address : Address} {handle : Handle} {node : Node}

/-- A playlist may be made the active one. -/
theorem Sound.pointActive {name : String} (sound : state.Sound)
    (leads : state.lookup ⟨.playlists, name⟩ = some handle) :
    (state.point ⟨.playlists, activeName⟩ handle).Sound := by
  have home := sound.home leads
  exact sound.point (sound.named leads) ⟨.playlists, activeName⟩ home

theorem lookup_insert (state : State) (address other : Address) (node : Node) :
    (state.insert address node).lookup other =
      if other = address then some (state.allocate node).1 else state.lookup other := by
  rw [State.insert, lookup_repoint, lookup_allocate]

theorem Sound.insert (sound : state.Sound) (address : Address) (valid : node.validate = .ok ()) :
    (state.insert address node).Sound := by
  have allocated := sound.allocate valid
  have there : ((state.allocate node).2.content (state.allocate node).1).isSome := by
    rw [sound.tidy.content_allocate, if_pos rfl]
    rfl
  refine allocated.repoint there address fun other leads => ?_
  rw [lookup_allocate] at leads
  exact absurd leads (sound.lookup_ne_allocate node other)

theorem Sound.clear (sound : state.Sound) (space : Namespace) : (state.clear space).Sound := by
  have dropped : (state.setNames space ∅).Sound := by
    have lookups : ∀ {address handle}, (state.setNames space ∅).lookup address = some handle →
        state.lookup address = some handle := by
      intro address handle leads
      rw [lookup_setNames] at leads
      split at leads
      · cases leads
      · exact leads
    have contents : ∀ handle, (state.setNames space ∅).content handle = state.content handle :=
      fun handle => congrArg (Option.map Tree.shape) (resolve_congr (slots_setNames ..) handle)
    exact {
      tidy := tidy_setNames.2 sound.tidy
      named leads := contents _ ▸ sound.named (lookups leads)
      separate here also := sound.separate (lookups here) (lookups also)
      valid found := sound.valid (contents _ ▸ found) }
  rw [State.clear]
  generalize state.setNames space ∅ = next at dropped
  generalize (state.names space).values = handles
  induction handles generalizing next with
  | nil => exact dropped
  | cons handle rest ih => exact ih _ (dropped.release handle)

theorem lookup_releaseAll (handles : List Handle) (state : State) :
    (handles.foldl release state).lookup address = state.lookup address := by
  induction handles generalizing state with
  | nil => rfl
  | cons first rest ih => exact (ih _).trans lookup_release

/-- Whether names of a namespace lead to collections of their own. -/
def Apart (state : State) (space : Namespace) : Prop :=
  ∀ {left right handle}, state.lookup ⟨space, left⟩ = some handle →
    state.lookup ⟨space, right⟩ = some handle → left = right

theorem lookup_clear (space : Namespace) (address : Address) :
    (state.clear space).lookup address =
      if address.space = space then none else state.lookup address := by
  rw [State.clear, lookup_releaseAll, lookup_setNames]
  rfl

theorem apart_clear (space : Namespace) : (state.clear space).Apart space := by
  intro left right handle leads
  rw [lookup_clear, if_pos rfl] at leads
  cases leads

theorem Apart.insert {space : Namespace} (apart : state.Apart space) (sound : state.Sound)
    (address : Address) (node : Node) : (state.insert address node).Apart space := by
  intro left right handle here there
  have unused := sound.lookup_ne_allocate node
  rw [lookup_insert] at here there
  split at here <;> split at there
  · next first second => exact congrArg Address.name (first.trans second.symm)
  · exact absurd (there.trans here.symm) (unused _)
  · exact absurd (here.trans there.symm) (unused _)
  · exact apart here there

/-- What another name leads to is not emptied with a namespace. -/
theorem content_releaseAll (leads : state.lookup address = some handle) (handles : List Handle) :
    (handles.foldl release state).content handle = state.content handle := by
  induction handles generalizing state with
  | nil => rfl
  | cons first rest ih =>
      have named : state.isNamed handle = true := isNamed_eq_true.2 ⟨address, leads⟩
      refine (ih (lookup_release.trans leads)).trans ?_
      rw [content_release, if_neg]
      rintro ⟨rfl, unnamed⟩
      rw [named] at unnamed
      cases unnamed

theorem shapeAt_clear (state : State) (space : Namespace) (address : Address) :
    (state.clear space).shapeAt address =
      if address.space = space then none else state.shapeAt address := by
  rw [shapeAt, lookup_clear]
  split
  · rfl
  · next elsewhere =>
    cases leads : state.lookup address with
    | none => rw [shapeAt, leads]; rfl
    | some handle =>
        have still : (state.setNames space ∅).lookup address = some handle := by
          rw [lookup_setNames, if_neg elsewhere, leads]
        rw [shapeAt_of_lookup leads, Option.bind_some, State.clear, content_releaseAll still]
        exact congrArg (Option.map Tree.shape) (resolve_congr (slots_setNames ..) handle)

end State

namespace Registry

section Reading

variable {σ : Type} [RecordStore σ]

theorem validate_of_readAt {address : Address} {record : String} {shape : Shape}
    (reads : Record.readAt address record = .ok shape) : shape.validate = .ok () := by
  unfold Record.readAt at reads
  split at reads
  · cases reads
  · split at reads
    · next valid =>
      cases reads
      exact valid
    · cases reads

/-- Only trees that keep the rules of their kinds are read. -/
theorem validate_of_readNamespace {store : σ} {space : Namespace} {trees : List (String × Shape)}
    (reads : readNamespace store space = .ok trees) :
    ∀ entry ∈ trees, entry.2.validate = .ok () := by
  obtain ⟨names, -, reads⟩ := Except.bind_eq_ok.1 reads
  intro entry member
  obtain ⟨name, -, readsEntry⟩ := exists_of_mem_right (List.mapM_eq_ok.1 reads) member
  obtain ⟨record, -, readsEntry⟩ := Except.bind_eq_ok.1 readsEntry
  obtain ⟨shape, readsShape, same⟩ := Except.bind_eq_ok.1 readsEntry
  obtain rfl := Except.ok.inj same
  exact validate_of_readAt readsShape

end Reading

variable {state : State}

/-- Collections that are taken over one after the other. -/
theorem insertAll_cons (space : Namespace) (name : String) (shape : Shape)
    (trees : List (String × Shape)) (next : Nat) :
    insertAll space ((name, shape) :: trees) state next =
      insertAll space trees (state.insert ⟨space, name⟩ (shape.number next).1)
        (shape.number next).2 := by
  rw [insertAll, List.foldlM_cons]
  rfl

theorem sound_insertAll (sound : state.Sound) {space : Namespace} {trees : List (String × Shape)}
    (valid : ∀ entry ∈ trees, entry.2.validate = .ok ()) (next : Nat) :
    (insertAll space trees state next).1.Sound := by
  induction trees generalizing state next with
  | nil => exact sound
  | cons entry rest ih =>
      obtain ⟨name, shape⟩ := entry
      rw [insertAll_cons]
      refine ih (sound.insert ⟨space, name⟩ ?_) (fun entry member => valid entry (.tail _ member)) _
      exact Tree.validate_of_shape_eq (Tree.shape_number shape next).symm (valid _ (.head _))

/-- Collections that are taken over do not share any. -/
theorem apart_insertAll (sound : state.Sound) {space : Namespace} (apart : state.Apart space)
    {trees : List (String × Shape)} (valid : ∀ entry ∈ trees, entry.2.validate = .ok ())
    (next : Nat) : (insertAll space trees state next).1.Apart space := by
  induction trees generalizing state next with
  | nil => exact apart
  | cons entry rest ih =>
      obtain ⟨name, shape⟩ := entry
      have rules := Tree.validate_of_shape_eq (Tree.shape_number shape next).symm (valid _ (.head _))
      rw [insertAll_cons]
      intro left right handle here there
      exact ih (sound.insert ⟨space, name⟩ rules) (apart.insert sound _ _)
        (fun entry member => valid entry (.tail _ member)) _ here there

theorem lookup_insertAll {space : Namespace} {trees : List (String × Shape)} {address : Address}
    (elsewhere : address.space ≠ space) (next : Nat) :
    (insertAll space trees state next).1.lookup address = state.lookup address := by
  induction trees generalizing state next with
  | nil => rfl
  | cons entry rest ih =>
      obtain ⟨name, shape⟩ := entry
      rw [insertAll_cons, ih, State.lookup_insert, if_neg fun same => elsewhere (by rw [same])]

/-- The end of making the default playlist: it is the active one unless there is one. -/
def activateDefault (created : Bool) (state : State) : Fresh (Bool × State) :=
  match state.lookup ⟨.playlists, activeName⟩, state.lookup ⟨.playlists, defaultPlaylist⟩ with
  | none, some handle => return (true, state.point ⟨.playlists, activeName⟩ handle)
  | _, _ => return (created, state)

theorem sound_activateDefault (sound : state.Sound) (created : Bool) (next : Nat) :
    (activateDefault created state next).1.2.Sound := by
  rw [activateDefault]
  cases active : state.lookup ⟨.playlists, activeName⟩ with
  | some _ => exact sound
  | none =>
      cases leads : state.lookup ⟨.playlists, defaultPlaylist⟩ with
      | none => exact sound
      | some handle => exact sound.pointActive leads

/-- What is made where it is missing keeps the rules of its kind. -/
theorem sound_createDefault (sound : state.Sound) (next : Nat) :
    (createDefault state next).1.2.Sound := by
  have valid : Tree.validate (.leaf ⟨next, none⟩ { kind := .list .list } : Node) = .ok () := rfl
  unfold createDefault
  by_cases there : (state.lookup ⟨.playlists, defaultPlaylist⟩).isSome
  · rw [if_pos there]
    exact sound_activateDefault sound false next
  · rw [if_neg there]
    have soundMade := sound.insert ⟨.playlists, defaultPlaylist⟩ valid
    exact sound_activateDefault soundMade true (next + 1)

section Restoring

variable {σ : Type} [RecordStore σ] (registry : Registry σ)

theorem restoreNamespace_run (space : Namespace) :
    (restoreNamespace space).run registry =
      match readNamespace registry.store space with
      | .ok trees =>
          let filled := insertAll space trees (registry.state.clear space) registry.nextIdentity
          (.ok true, { registry with state := filled.1, nextIdentity := filled.2 })
      | .error _ => (.ok false, { registry with isPersisting := false }) := by
  rw [restoreNamespace, get_bind_run]
  cases readNamespace registry.store space <;> rfl

theorem store_restoreNamespace (space : Namespace) :
    ((restoreNamespace space).run registry).2.store = registry.store := by
  rw [restoreNamespace_run]
  split <;> rfl

theorem exists_restoreNamespace_run (space : Namespace) :
    ∃ taken, ((restoreNamespace space).run registry).1 = .ok taken := by
  rw [restoreNamespace_run]
  cases readNamespace registry.store space with
  | ok trees => exact ⟨true, rfl⟩
  | error error => exact ⟨false, rfl⟩

theorem sound_restoreNamespace (sound : registry.state.Sound) (space : Namespace) :
    ((restoreNamespace space).run registry).2.state.Sound := by
  rw [restoreNamespace_run]
  split
  · next trees reads =>
    exact sound_insertAll (sound.clear space) (validate_of_readNamespace reads) _
  · exact sound

theorem sound_restoreActive (sound : registry.state.Sound) :
    (restoreActive.run registry).2.state.Sound := by
  rw [restoreActive, modify_run]
  split
  · exact sound
  · exact sound
  · split
    · next handle leads => exact sound.pointActive leads
    · exact sound

/-- What a restore ends with. -/
def linkAll (persistence : Persistence) (created : Bool) (state : State) : Call σ Unit := do
  modify (·.withState state.bindAll)
  if created then
    match persistence with
    | .immediate => persist [.playlists]
    | .deferred => modify (·.markDirty [.playlists])

/-- What a restore does once it has read the store. -/
def settle : Call σ Unit := do
  let registry ← MonadState.get
  let (created, state) ←
    if registry.config.createDefaultPlaylist then fresh (createDefault registry.state)
    else pure (false, registry.state)
  linkAll registry.config.persistence created state

theorem restore_eq :
    restore = (do
      let _ ← restoreNamespace .collections
      if ← restoreNamespace .playlists then restoreActive
      settle : Call σ Unit) := rfl

theorem state_linkAll (state : State) (persistence : Persistence) (created : Bool) :
    ((linkAll persistence created state).run registry).2.state = state.bindAll := by
  cases created with
  | false => rfl
  | true =>
      cases persistence with
      | deferred => rfl
      | immediate => exact state_persist (registry.withState state.bindAll) [.playlists]

theorem state_settle :
    ((settle : Call σ Unit).run registry).2.state =
      (if registry.config.createDefaultPlaylist then
        (createDefault registry.state registry.nextIdentity).1.2
      else registry.state).bindAll := by
  rw [settle, get_bind_run]
  cases registry.config.createDefaultPlaylist with
  | false => exact registry.state_linkAll registry.state registry.config.persistence false
  | true =>
      let created := createDefault registry.state registry.nextIdentity
      exact state_linkAll { registry with nextIdentity := created.2 } created.1.2
        registry.config.persistence created.1.1

theorem wellFormed_settle (sound : registry.state.Sound) :
    ((settle : Call σ Unit).run registry).2.state.WellFormed := by
  rw [state_settle]
  split
  · exact (sound_createDefault sound registry.nextIdentity).bindAll
  · exact sound.bindAll

/-- A restore takes over one namespace after the other, and then the active playlist if the playlists
could be read. -/
theorem restore_run :
    let first := ((restoreNamespace .collections).run registry).2
    let second := ((restoreNamespace .playlists).run first).2
    (restore : Call σ Unit).run registry = settle.run
      (match readNamespace registry.store .playlists with
      | .ok _ => (restoreActive.run second).2
      | .error _ => second) := by
  intro first second
  obtain ⟨_, taken⟩ := registry.exists_restoreNamespace_run .collections
  have store : first.store = registry.store := registry.store_restoreNamespace .collections
  rw [restore_eq, bind_run, taken]
  show ((restoreNamespace .playlists >>= _).run first) = _
  rw [bind_run, ← store, show second = ((restoreNamespace .playlists).run first).2 from rfl,
    restoreNamespace_run]
  cases readNamespace first.store .playlists <;> rfl

/-- Whatever is in the store, what is there after a restore has been linked. -/
theorem wellFormed_restore (sound : registry.state.Sound) :
    ((restore : Call σ Unit).run registry).2.state.WellFormed := by
  have soundFirst := registry.sound_restoreNamespace sound .collections
  have soundSecond := sound_restoreNamespace _ soundFirst .playlists
  rw [restore_run]
  split
  · exact wellFormed_settle _ (sound_restoreActive _ soundSecond)
  · exact wellFormed_settle _ soundSecond

theorem state_sync : ((sync : Call σ Unit).run registry).2.state = registry.state := by
  have persisted : ∀ spaces : List Namespace,
      ((do
        persist spaces
        modify ({ · with isDirty := fun _ => false }) : Call σ Unit).run
        registry).2.state = registry.state := by
    intro spaces
    have kept := state_persist registry spaces
    rw [bind_run]
    cases ((persist spaces).run registry).1 <;> exact kept
  rw [sync, get_bind_run]
  cases RecordStore.isPersistent registry.store with
  | false => rfl
  | true =>
      cases registry.isPersisting with
      | false => rfl
      | true => exact persisted Namespace.all

end Restoring

/-- What happens to a registry: a program uses it, or the store behind it is changed by another. -/
inductive Operation (σ : Type) where
  | serve (request : Request)
  | bindAll
  | unbindAll
  | restore
  | sync
  | edit (store : σ)

section Operations

variable {σ : Type} [RecordStore σ]

/-- The registry after an operation. -/
def perform (registry : Registry σ) : Operation σ → Registry σ
  | .serve request => registry.serve request
  | .bindAll => (bindAll.run registry).2
  | .unbindAll => (unbindAll.run registry).2
  | .restore => (restore.run registry).2
  | .sync => (sync.run registry).2
  | .edit store => { registry with store }

/-- The registry after several operations. -/
def performAll (registry : Registry σ) (operations : List (Operation σ)) : Registry σ :=
  operations.foldl perform registry

theorem wellFormed_perform {registry : Registry σ} (wellFormed : registry.state.WellFormed)
    (operation : Operation σ) : (registry.perform operation).state.WellFormed := by
  cases operation with
  | serve request => exact wellFormed_serve wellFormed request
  | bindAll => exact wellFormed.toSound.bindAll
  | unbindAll => exact wellFormed.toSound.unbindAll
  | restore => exact registry.wellFormed_restore wellFormed.toSound
  | sync => exact (congrArg State.WellFormed registry.state_sync).mpr wellFormed
  | edit store => exact wellFormed

theorem wellFormed_performAll {registry : Registry σ} (wellFormed : registry.state.WellFormed)
    (operations : List (Operation σ)) : (registry.performAll operations).state.WellFormed := by
  induction operations generalizing registry with
  | nil => exact wellFormed
  | cons operation rest ih => exact ih (wellFormed_perform wellFormed operation)

end Operations

end Registry

end Medley
