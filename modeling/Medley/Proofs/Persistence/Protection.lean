import Medley.Proofs.Registry.Restoring
import Medley.Store.Memory

/-!
# What could not be read is not lost

A restore that cannot read everything stops the registry from writing (`Registry.isPersisting_restore`),
nothing starts it again, and a registry that does not write leaves the store alone.  So whatever such a
registry goes on to do, the default playlist that the restore itself makes included, the store is as other
programs leave it (`Registry.store_performAll_restore`).
-/

namespace Medley

namespace Registry

section Reading

variable {σ : Type} [RecordStore σ]

/-- Whether the record at an address cannot be read from a store. -/
inductive UnreadableRecord (store : σ) (address : Address) : Prop where
  /-- There is no getting at it. -/
  | record {error : Error} (fails : RecordStore.get store address = .error error)
  /-- It is no text of a tree. -/
  | text {record : String} {error : Error} (gets : RecordStore.get store address = .ok record)
      (fails : Record.read address.render record = .error error)
  /-- It is the text of a tree that breaks the rules of its kinds. -/
  | tree {record : String} {shape : Shape} {error : Error}
      (gets : RecordStore.get store address = .ok record)
      (reads : Record.read address.render record = .ok shape)
      (breaks : shape.validate = .error error)

/-- Whether something of a namespace cannot be read from a store. -/
inductive Unreadable (store : σ) (space : Namespace) : Prop where
  | listing {error : Error} (fails : RecordStore.list store space = .error error)
  | listed {names : List String} {name : String} (lists : RecordStore.list store space = .ok names)
      (member : name ∈ names) (unreadable : UnreadableRecord store ⟨space, name⟩)

/-- Whether a restore from a store cannot read everything: the namespaces and the active playlist. -/
def Spoiled (store : σ) : Prop :=
  (∃ space, Unreadable store space) ∨ ∃ error, RecordStore.getActive store = .error error

/-- A record is refused if it is no text of a tree, or of one that breaks the rules of its kinds. -/
theorem exists_readAt_eq_error {address : Address} {record : String} :
    (∃ error, Record.readAt address record = .error error) ↔
      (∃ error, Record.read address.render record = .error error) ∨
        ∃ shape error, Record.read address.render record = .ok shape ∧
          shape.validate = .error error := by
  unfold Record.readAt
  cases Record.read address.render record with
  | error error => simp
  | ok shape => cases valid : shape.validate <;> simp [valid]

/-- What is read at an address, with its name, is read unless the record cannot be. -/
theorem exists_readEntry_eq_error {store : σ} {address : Address} :
    (∃ error, (do
      let record ← RecordStore.get store address
      return (address.name, ← Record.readAt address record) :
        Except Error (String × Shape)) = .error error) ↔ UnreadableRecord store address := by
  cases gets : RecordStore.get store address with
  | error error =>
      constructor
      · intro _
        exact .record gets
      · intro _
        exact ⟨error, rfl⟩
  | ok record =>
      have unreadable : UnreadableRecord store address ↔
          (∃ error, Record.read address.render record = .error error) ∨
            ∃ shape error, Record.read address.render record = .ok shape ∧
              shape.validate = .error error := by
        constructor
        · intro unreadable
          cases unreadable with
          | record fails =>
              rw [gets] at fails
              cases fails
          | text gets' fails =>
              rw [gets] at gets'
              cases gets'
              exact .inl ⟨_, fails⟩
          | tree gets' reads breaks =>
              rw [gets] at gets'
              cases gets'
              exact .inr ⟨_, _, reads, breaks⟩
        · rintro (⟨error, fails⟩ | ⟨shape, error, reads, breaks⟩)
          · exact .text gets fails
          · exact .tree gets reads breaks
      rw [unreadable, ← exists_readAt_eq_error]
      show (∃ error, (Record.readAt address record >>= _) = .error error) ↔ _
      cases Record.readAt address record <;> simp [bind, Except.bind, pure, Except.pure]

/-- A namespace is read unless something of it cannot be. -/
theorem exists_readNamespace_eq_error {store : σ} {space : Namespace} :
    (∃ error, readNamespace store space = .error error) ↔ Unreadable store space := by
  cases lists : RecordStore.list store space with
  | error error =>
      constructor
      · intro _
        exact .listing lists
      · intro _
        exact ⟨error, by rw [readNamespace, lists]; rfl⟩
  | ok names =>
      have reads : readNamespace store space = names.mapM fun name => (do
          let record ← RecordStore.get store ⟨space, name⟩
          return (name, ← Record.readAt ⟨space, name⟩ record)) := by
        rw [readNamespace, lists]
        rfl
      rw [reads, List.exists_mapM_eq_error]
      constructor
      · rintro ⟨name, member, fails⟩
        exact .listed lists member (exists_readEntry_eq_error.1 fails)
      · intro unreadable
        cases unreadable with
        | listing fails =>
            rw [lists] at fails
            cases fails
        | @listed others name lists' member unreadable =>
            rw [lists] at lists'
            cases lists'
            exact ⟨name, member, exists_readEntry_eq_error.2 unreadable⟩

end Reading

/-- The store after an operation, as far as other programs decide it. -/
def Operation.edited {σ : Type} (store : σ) : Operation σ → σ
  | .edit other => other
  | _ => store

section Persisting

variable {σ : Type} [RecordStore σ] (registry : Registry σ)

/-- Writing does not decide whether anything is written later. -/
theorem isPersisting_persist (spaces : List Namespace) :
    ((persist spaces).run registry).2.isPersisting = registry.isPersisting := by
  rw [persist_run]
  split <;> rfl

theorem isPersisting_serve (request : Request) :
    (registry.serve request).isPersisting = registry.isPersisting := by
  rcases registry.serve_inversion request with ⟨_, _, _, _, -, -, same⟩ | ⟨-, _, same⟩
  · rw [same]
  · rw [same]

theorem isPersisting_sync :
    ((sync : Call σ Unit).run registry).2.isPersisting = registry.isPersisting := by
  have persists := registry.isPersisting_persist Namespace.all
  rw [sync, get_bind_run]
  cases RecordStore.isPersistent registry.store with
  | false => rfl
  | true =>
      cases persisting : registry.isPersisting with
      | false => exact persisting
      | true =>
          show ((persist Namespace.all >>= fun _ => modify _).run registry).2.isPersisting = true
          rw [persisting] at persists
          rw [bind_run]
          cases ((persist Namespace.all).run registry).1 <;> exact persists

theorem isPersisting_linkAll (persistence : Persistence) (created : Bool) (state : State) :
    ((linkAll persistence created state).run registry).2.isPersisting = registry.isPersisting := by
  cases created with
  | false => rfl
  | true =>
      cases persistence with
      | deferred => rfl
      | immediate => exact (registry.withState state.bindAll).isPersisting_persist [.playlists]

theorem isPersisting_settle :
    ((settle : Call σ Unit).run registry).2.isPersisting = registry.isPersisting := by
  rw [settle, get_bind_run]
  cases registry.config.createDefaultPlaylist with
  | false => exact registry.isPersisting_linkAll registry.config.persistence false registry.state
  | true =>
      let made := createDefault registry.state registry.nextIdentity
      exact isPersisting_linkAll { registry with nextIdentity := made.2 } registry.config.persistence
        made.1.1 made.1.2

/-- A namespace that cannot be read stops writing. -/
theorem isPersisting_restoreNamespace (space : Namespace) :
    ((restoreNamespace space).run registry).2.isPersisting = true ↔
      registry.isPersisting = true ∧ ¬ Unreadable registry.store space := by
  rw [restoreNamespace_run, ← exists_readNamespace_eq_error]
  cases readNamespace registry.store space <;> simp

theorem isPersisting_restoreActive :
    ((restoreActive : Call σ Unit).run registry).2.isPersisting = true ↔
      registry.isPersisting = true ∧ ¬ ∃ error, RecordStore.getActive registry.store = .error error := by
  rw [restoreActive, modify_run]
  cases RecordStore.getActive registry.store with
  | error error => simp
  | ok name =>
      cases name with
      | none => simp
      | some name =>
          simp only
          cases registry.state.lookup ⟨.playlists, name⟩ <;> simp [withState]

/-- A restore leaves a registry writing exactly if it was writing and everything could be read. -/
theorem isPersisting_restore :
    ((restore : Call σ Unit).run registry).2.isPersisting = true ↔
      registry.isPersisting = true ∧ ¬ Spoiled registry.store := by
  let first := ((restoreNamespace .collections).run registry).2
  let second := ((restoreNamespace .playlists).run first).2
  have storeFirst : first.store = registry.store := registry.store_restoreNamespace .collections
  have storeSecond : second.store = registry.store :=
    (first.store_restoreNamespace .playlists).trans storeFirst
  have spaces : (∃ space, Unreadable registry.store space) ↔
      Unreadable registry.store .collections ∨ Unreadable registry.store .playlists := by
    constructor
    · rintro ⟨space, unreadable⟩
      cases space with
      | collections => exact .inl unreadable
      | playlists => exact .inr unreadable
    · rintro (unreadable | unreadable)
      · exact ⟨_, unreadable⟩
      · exact ⟨_, unreadable⟩
  have reached : second.isPersisting = true ↔ (registry.isPersisting = true ∧
      ¬ Unreadable registry.store .collections) ∧ ¬ Unreadable registry.store .playlists := by
    rw [isPersisting_restoreNamespace, isPersisting_restoreNamespace, storeFirst]
  rw [restore_run, isPersisting_settle, Spoiled, spaces]
  cases reads : readNamespace registry.store .playlists with
  | error error =>
      have unreadable : Unreadable registry.store .playlists :=
        exists_readNamespace_eq_error.1 ⟨error, reads⟩
      simp only
      rw [reached]
      tauto
  | ok trees =>
      simp only
      rw [isPersisting_restoreActive, reached, storeSecond]
      tauto

/-- Nothing but a restore changes whether anything is written, and a restore only stops it. -/
theorem isPersisting_perform (stopped : registry.isPersisting = false) (operation : Operation σ) :
    (registry.perform operation).isPersisting = false := by
  cases operation with
  | serve request => exact (registry.isPersisting_serve request).trans stopped
  | bindAll => exact stopped
  | unbindAll => exact stopped
  | restore =>
      rw [← Bool.not_eq_true, perform, isPersisting_restore]
      intro both
      rw [stopped] at both
      exact Bool.false_ne_true both.1
  | sync => exact registry.isPersisting_sync.trans stopped
  | edit store => exact stopped

end Persisting

section Stopped

variable {σ : Type} [RecordStore σ] {registry : Registry σ}

theorem persist_run_of_stopped (stopped : registry.isPersisting = false) (spaces : List Namespace) :
    (persist spaces).run registry = (.ok (), registry) := by
  rw [persist_run, stopped, Bool.and_false, if_neg Bool.false_ne_true]

theorem store_change (stopped : registry.isPersisting = false) (spaces : List Namespace)
    (action : State → Fresh (Except Error State)) :
    ((change spaces action).run registry).2.store = registry.store := by
  rw [change_run]
  obtain ⟨result, nextIdentity⟩ := action registry.state registry.nextIdentity
  cases result with
  | error error => rfl
  | ok state =>
      simp only
      cases registry.config.persistence with
      | deferred => rfl
      | immediate =>
          have unwritten := @persist_run_of_stopped _ _ { registry with state, nextIdentity }
            stopped spaces
          simp only [unwritten]

theorem store_serve (stopped : registry.isPersisting = false) (request : Request) :
    (registry.serve request).store = registry.store := by
  unfold serve
  rcases registry.call_cases request with ⟨count, rfl⟩ | changes
  · rfl
  · rw [changes]
    exact store_change stopped request.spaces fun state => state.apply request

/-- A registry that does not write refuses to write everything, unless nothing is kept at all. -/
theorem sync_run_of_stopped (stopped : registry.isPersisting = false) :
    (sync : Call σ Unit).run registry =
      if RecordStore.isPersistent registry.store then
        (.error { cause := .persistenceDisabled }, registry)
      else (.ok (), { registry with isDirty := fun _ => false }) := by
  rw [sync, get_bind_run]
  cases RecordStore.isPersistent registry.store with
  | false => rfl
  | true =>
      simp only [stopped]
      rfl

theorem store_linkAll (stopped : registry.isPersisting = false) (persistence : Persistence)
    (created : Bool) (state : State) :
    ((linkAll persistence created state).run registry).2.store = registry.store := by
  cases created with
  | false => rfl
  | true =>
      cases persistence with
      | deferred => rfl
      | immediate =>
          show ((persist [.playlists]).run (registry.withState state.bindAll)).2.store = _
          have bound : (registry.withState state.bindAll).isPersisting = false := stopped
          rw [persist_run_of_stopped bound]
          rfl

theorem store_settle (stopped : registry.isPersisting = false) :
    ((settle : Call σ Unit).run registry).2.store = registry.store := by
  rw [settle, get_bind_run]
  cases registry.config.createDefaultPlaylist with
  | false => exact store_linkAll stopped registry.config.persistence false registry.state
  | true =>
      let made := createDefault registry.state registry.nextIdentity
      exact @store_linkAll _ _ { registry with nextIdentity := made.2 } stopped
        registry.config.persistence made.1.1 made.1.2

theorem store_restoreActive : ((restoreActive : Call σ Unit).run registry).2.store = registry.store := by
  rw [restoreActive, modify_run]
  cases RecordStore.getActive registry.store with
  | error error => rfl
  | ok name =>
      cases name with
      | none => rfl
      | some name =>
          simp only
          cases registry.state.lookup ⟨.playlists, name⟩ <;> rfl

/-- A restore that ends with a registry that does not write has not written. -/
theorem store_restore (stopped : ((restore : Call σ Unit).run registry).2.isPersisting = false) :
    ((restore : Call σ Unit).run registry).2.store = registry.store := by
  let first := ((restoreNamespace .collections).run registry).2
  let second := ((restoreNamespace .playlists).run first).2
  have storeSecond : second.store = registry.store :=
    (first.store_restoreNamespace .playlists).trans (registry.store_restoreNamespace .collections)
  rw [restore_run] at stopped ⊢
  rw [isPersisting_settle] at stopped
  rw [store_settle stopped]
  split
  · exact store_restoreActive.trans storeSecond
  · exact storeSecond

/-- A registry that does not write leaves the store to other programs. -/
theorem store_perform (stopped : registry.isPersisting = false) (operation : Operation σ) :
    (registry.perform operation).store = Operation.edited registry.store operation := by
  cases operation with
  | serve request => exact store_serve stopped request
  | bindAll => rfl
  | unbindAll => rfl
  | restore => exact store_restore (registry.isPersisting_perform stopped .restore)
  | sync =>
      show ((sync : Call σ Unit).run registry).2.store = registry.store
      rw [sync_run_of_stopped stopped]
      split <;> rfl
  | edit store => rfl

theorem store_performAll (stopped : registry.isPersisting = false) (operations : List (Operation σ)) :
    (registry.performAll operations).isPersisting = false ∧
      (registry.performAll operations).store = operations.foldl Operation.edited registry.store := by
  induction operations generalizing registry with
  | nil => exact ⟨stopped, rfl⟩
  | cons operation rest ih =>
      have later := ih (registry.isPersisting_perform stopped operation)
      rw [store_perform stopped] at later
      exact later

/-- After a restore that could not read everything, and in it, the store is as other programs leave it,
whatever the registry does, and a request to write everything is refused where anything is kept. -/
theorem store_performAll_restore (registry : Registry σ) (spoiled : Spoiled registry.store)
    (operations : List (Operation σ)) :
    let reached := ((restore : Call σ Unit).run registry).2.performAll operations
    reached.store = operations.foldl Operation.edited registry.store ∧
      (RecordStore.isPersistent reached.store = true →
        ((sync : Call σ Unit).run reached).1 = .error { cause := .persistenceDisabled }) := by
  intro reached
  have stopped : ((restore : Call σ Unit).run registry).2.isPersisting = false := by
    rw [← Bool.not_eq_true, isPersisting_restore]
    intro both
    exact both.2 spoiled
  obtain ⟨stays, stores⟩ := store_performAll stopped operations
  rw [store_restore stopped] at stores
  refine ⟨stores, ?_⟩
  intro persistent
  rw [sync_run_of_stopped stays, if_pos persistent]

/-- Over a record that cannot be read nothing is saved, taken over or written any more. -/
theorem store_performAll_restore_broken :
    let store : MemoryStore := { collections := SortedMap.ofList [("Rock", "(universe")] }
    let registry : Registry MemoryStore := { config := { persistence := .immediate }, store }
    let operations : List (Operation MemoryStore) :=
      [.serve (.save ⟨.collections, "Rock"⟩ (.leaf ⟨7, none⟩ { kind := .universe })),
        .serve (.rename ⟨.collections, "Rock"⟩ "Stone"), .serve (.activate "Default"), .restore, .sync]
    let reached := ((restore : Call MemoryStore Unit).run registry).2.performAll operations
    Spoiled registry.store ∧ reached.list .playlists = ["Default", activeName] ∧
      reached.store = registry.store ∧
      ((sync : Call MemoryStore Unit).run reached).1 = .error { cause := .persistenceDisabled } := by
  intro store registry operations reached
  have spoiled : Spoiled registry.store := by
    have fails : ∃ error, Record.read "Collections/Rock" "(universe" = .error error :=
      ⟨_, rfl⟩
    obtain ⟨error, fails⟩ := fails
    exact .inl ⟨.collections, .listed rfl (.head _) (.text rfl fails)⟩
  obtain ⟨stores, refuses⟩ := store_performAll_restore registry spoiled operations
  refine ⟨spoiled, ?_, stores, refuses rfl⟩
  subst reached operations registry store
  decide +kernel

end Stopped

end Registry

end Medley
