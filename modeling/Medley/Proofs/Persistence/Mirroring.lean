import Medley.Proofs.Persistence.Restored

/-!
# A mirror through every operation

A registry that writes at once over a store in memory of its own keeps the mirror whatever it does: what
a restore takes over is what it says already, so the records stay right although the collections have
other slots, and the default playlist is written as it is made.  So the store lists the names, and has
the records and the name of the active playlist, that the stored collections call for
(`Registry.performAll_mirrors`).
-/

namespace Medley

section Keys

variable {κ : Type} [Ord κ] {α β : Type} {keep : κ → Bool}

theorem SortedMap.keys_filter (map : SortedMap κ α) :
    (map.filter fun key _ => keep key).keys = map.keys.filter keep := by
  simp [keys, filter, List.filter_map, Function.comp_def]

/-- Maps list the keys that they share in the same order. -/
theorem SortedMap.filter_keys_congr [Std.TransOrd κ] [Std.LawfulEqOrd κ] {left : SortedMap κ α}
    {right : SortedMap κ β}
    (same : ∀ key, keep key → ((left.get? key).isSome ↔ (right.get? key).isSome)) :
    left.keys.filter keep = right.keys.filter keep := by
  rw [← keys_filter, ← keys_filter]
  refine keys_eq_of_isSome fun key => ?_
  rw [Bool.eq_iff_iff, ← mem_keys_iff, ← mem_keys_iff, keys_filter, keys_filter, List.mem_filter,
    List.mem_filter, mem_keys_iff, mem_keys_iff]
  exact and_congr_left (same key)

/-- A map lists the keys that are kept of another one in the same order. -/
theorem SortedMap.keys_eq_filter [Std.TransOrd κ] [Std.LawfulEqOrd κ] {left : SortedMap κ α}
    {right : SortedMap κ β}
    (same : ∀ key, (left.get? key).isSome ↔ (right.get? key).isSome ∧ keep key) :
    left.keys = right.keys.filter keep := by
  rw [← keys_filter]
  refine keys_eq_of_isSome fun key => ?_
  rw [Bool.eq_iff_iff, same, ← mem_keys_iff, ← mem_keys_iff, keys_filter, List.mem_filter]

end Keys

namespace State

variable {state after last : State} {address : Address} {handle : Handle} {node : Node}

namespace Leaves

variable {spaces : List Namespace}

theorem refl (state : State) (spaces : List Namespace) : state.Leaves state spaces :=
  ⟨fun _ _ => rfl, fun _ _ => rfl⟩

theorem trans (first : state.Leaves after spaces) (second : after.Leaves last spaces) :
    state.Leaves last spaces where
  lookup address untouched := (second.lookup address untouched).trans (first.lookup address untouched)
  contents untouched leads :=
    (second.contents untouched ((first.lookup _ untouched).trans leads)).trans
      (first.contents untouched leads)

/-- Linking says nothing new. -/
theorem bindAll (leaves : state.Leaves after spaces) : state.Leaves after.bindAll spaces where
  lookup address untouched := lookup_bindAll ▸ leaves.lookup address untouched
  contents untouched leads := content_bindAll.trans (leaves.contents untouched leads)

end Leaves

theorem leaves_point (state : State) (address : Address) (handle : Handle) :
    state.Leaves (state.point address handle) [address.space] where
  lookup other untouched := lookup_point.trans (if_neg fun same => untouched (by simp [same]))
  contents _ _ := content_point

theorem Sound.leaves_insert (sound : state.Sound) (free : state.lookup address = none) :
    state.Leaves (state.insert address node) [address.space] where
  lookup other untouched :=
    (lookup_insert ..).trans (if_neg fun same => untouched (by simp [same]))
  contents _ leads := (sound.content_insert free).trans
    (if_neg fun new => sound.lookup_ne_allocate node _ (new ▸ leads))

end State

theorem Mirrors.congr {store : MemoryStore} {state after : State} (mirrors : Mirrors store state)
    (shapes : ∀ address, after.shapeAt address = state.shapeAt address)
    (target : after.activeTarget = state.activeTarget) : Mirrors store after where
  records address := by
    have same : after.recorded address = state.recorded address := by
      rw [State.recorded, State.recorded, shapes, target]
    rw [same, mirrors.records]
  active := mirrors.active.trans target.symm

/-- Links are not written. -/
theorem Mirrors.relinked {store : MemoryStore} {state after : State} (mirrors : Mirrors store state)
    (lookups : after.lookup = state.lookup)
    (contents : ∀ handle, after.content handle = state.content handle) : Mirrors store after := by
  refine mirrors.congr (fun address => ?_) (State.activeTarget_congr fun name => by rw [lookups])
  rw [State.shapeAt, State.shapeAt, lookups, funext contents]

namespace State

variable {state : State} {address : Address}

/-- Whether an address is that of the active playlist while another playlist shares its collection. -/
def StandsForAnother (state : State) (address : Address) : Prop :=
  address = ⟨.playlists, activeName⟩ ∧ ∃ name handle, name ≠ activeName ∧
    state.lookup ⟨.playlists, name⟩ = some handle ∧ state.lookup address = some handle

theorem standsForAnother_iff :
    state.StandsForAnother address ↔
      address = ⟨.playlists, activeName⟩ ∧ state.activeTarget.isSome := by
  refine and_congr_right fun stands => ?_
  subst stands
  constructor
  · rintro ⟨name, handle, different, found, leads⟩
    refine Option.isSome_iff_ne_none.2 fun absent => different ?_
    exact activeTarget_eq_none.1 absent leads found
  · intro active
    obtain ⟨name, active⟩ := Option.isSome_iff_exists.1 active
    obtain ⟨different, handle, leads, found⟩ := exists_of_activeTarget active
    exact ⟨name, handle, different, found, leads⟩

instance (state : State) (address : Address) : Decidable (state.StandsForAnother address) :=
  decidable_of_iff _ standsForAnother_iff.symm

theorem recorded_eq_some {shape : Shape} :
    state.recorded address = some shape ↔
      ¬ state.StandsForAnother address ∧ state.shapeAt address = some shape := by
  rw [State.recorded, standsForAnother_iff]
  split
  · next stands => simp [stands]
  · next stands => simp [stands]

end State

namespace Mirrors

variable {store : MemoryStore} {state : State} (mirrors : Mirrors store state)

include mirrors

/-- The names with records are those of the stored collections. -/
theorem list_eq (sound : state.Sound) (space : Namespace) :
    RecordStore.list store space =
      .ok ((state.names space).keys.filter fun name => ¬ state.StandsForAnother ⟨space, name⟩) := by
  refine congrArg Except.ok (SortedMap.keys_eq_filter fun name => ?_)
  have record : (store.records space).get? name =
      (state.recorded ⟨space, name⟩).map Record.write := mirrors.records ⟨space, name⟩
  rw [record, Option.isSome_map, Option.isSome_iff_exists]
  simp only [State.recorded_eq_some, exists_and_left, ← Option.isSome_iff_exists, sound.shapeAt_isSome,
    decide_eq_true_eq]
  exact and_comm

/-- The records are those of the stored collections. -/
theorem get_eq_ok_iff {address : Address} {record : String} :
    RecordStore.get store address = .ok record ↔ ∃ tree, state.get? address = some tree ∧
      ¬ state.StandsForAnother address ∧ record = Record.write tree := by
  have got : RecordStore.get store address = .ok record ↔ store.get? address = some record := by
    show (store.get? address).elim address.notFound .ok = .ok record ↔ _
    cases store.get? address <;> simp [Address.notFound, fail]
  rw [got, mirrors.records, Option.map_eq_some_iff]
  simp only [State.recorded_eq_some, State.shapeAt_eq_some, State.get?, Option.bind_eq_some_iff]
  constructor
  · rintro ⟨shape, ⟨alone, handle, tree, leads, stored, rfl⟩, rfl⟩
    exact ⟨tree, ⟨handle, leads, stored⟩, alone, Record.write_shape tree⟩
  · rintro ⟨tree, ⟨handle, leads, stored⟩, alone, rfl⟩
    exact ⟨tree.shape, ⟨alone, handle, tree, leads, stored, rfl⟩, Record.write_shape tree⟩

end Mirrors

namespace Registry

section Default

variable {state : State}

theorem leaves_activateDefault (created : Bool) (next : Nat) :
    let made := (activateDefault created state next).1
    state.Leaves made.2 [.playlists] ∧ (made.1 = false → created = false ∧ made.2 = state) := by
  rw [activateDefault]
  cases state.lookup ⟨.playlists, activeName⟩ with
  | some _ => exact ⟨.refl .., fun same => ⟨same, rfl⟩⟩
  | none =>
      cases state.lookup ⟨.playlists, defaultPlaylist⟩ with
      | none => exact ⟨.refl .., fun same => ⟨same, rfl⟩⟩
      | some handle =>
          have leaves := state.leaves_point ⟨.playlists, activeName⟩ handle
          exact ⟨leaves, fun same => absurd same.symm Bool.false_ne_true⟩

/-- The default playlist is made among the playlists, and nothing changes unless it says so. -/
theorem leaves_createDefault (sound : state.Sound) (next : Nat) :
    let made := (createDefault state next).1
    state.Leaves made.2 [.playlists] ∧ (made.1 = false → made.2 = state) := by
  unfold createDefault
  by_cases there : (state.lookup ⟨.playlists, defaultPlaylist⟩).isSome
  · rw [if_pos there]
    obtain ⟨leaves, unchanged⟩ := @leaves_activateDefault state false next
    exact ⟨leaves, fun same => (unchanged same).2⟩
  · rw [if_neg there]
    have free := Option.not_isSome_iff_eq_none.1 there
    let made := state.insert ⟨.playlists, defaultPlaylist⟩ (.leaf ⟨next, none⟩ { kind := .list .list })
    obtain ⟨leaves, unchanged⟩ := @leaves_activateDefault made true (next + 1)
    exact ⟨(sound.leaves_insert free).trans leaves, fun same => nomatch (unchanged same).1⟩

end Default

variable {registry : Registry MemoryStore}

/-- A restore ends with a registry that is mirrored, if it was before the default playlist was made. -/
theorem kept_linkAll {before state : State} {created : Bool} (sound : state.Sound)
    (mirrors : Mirrors registry.store before) (persisting : registry.isPersisting = true)
    (immediate : registry.config.persistence = .immediate)
    (leaves : before.Leaves state [.playlists]) (unchanged : created = false → state = before) :
    ((linkAll .immediate created state).run registry).2.Kept := by
  cases created with
  | false =>
      obtain rfl := unchanged rfl
      have mirrored := mirrors.relinked State.lookup_bindAll fun _ => State.content_bindAll
      exact ⟨sound.bindAll, mirrored, persisting, immediate⟩
  | true =>
      have wellFormed := sound.bindAll
      obtain ⟨store, persists, mirrored⟩ :=
        @persist_run_of_mirrors (registry.withState state.bindAll) _ _ wellFormed.toSound persisting
          mirrors leaves.bindAll
      have runs : (linkAll .immediate true state).run registry =
          (persist [.playlists]).run (registry.withState state.bindAll) := rfl
      rw [runs, persists]
      exact ⟨wellFormed, mirrored, persisting, immediate⟩

theorem kept_settle (sound : registry.state.Sound) (mirrors : Mirrors registry.store registry.state)
    (persisting : registry.isPersisting = true)
    (immediate : registry.config.persistence = .immediate) :
    ((settle : Call MemoryStore Unit).run registry).2.Kept := by
  rw [settle, get_bind_run, immediate]
  cases registry.config.createDefaultPlaylist with
  | false =>
      show ((linkAll .immediate false registry.state).run registry).2.Kept
      exact kept_linkAll sound mirrors persisting immediate (.refl ..) fun _ => rfl
  | true =>
      let made := createDefault registry.state registry.nextIdentity
      obtain ⟨leaves, unchanged⟩ := leaves_createDefault sound registry.nextIdentity
      exact @kept_linkAll { registry with nextIdentity := made.2 } _ _ _
        (sound_createDefault sound registry.nextIdentity) mirrors persisting immediate leaves unchanged

/-- What a registry has written itself says the same when it is taken over. -/
theorem kept_restore (kept : registry.Kept) :
    ((restore : Call MemoryStore Unit).run registry).2.Kept := by
  have sound := kept.wellFormed.toSound
  obtain ⟨filled, next, runs, soundFilled, unshared, shapes⟩ :=
    restore_run_of_mirrors kept.mirrors sound sound
  obtain ⟨soundAgain, unshares, target⟩ := sound.reactivated soundFilled unshared shapes
  rw [runs]
  exact @kept_settle { registry with state := _, nextIdentity := next } soundAgain
    (kept.mirrors.congr unshares.shapes target) kept.persisting kept.immediate

theorem kept_sync (kept : registry.Kept) : ((sync : Call MemoryStore Unit).run registry).2.Kept := by
  obtain ⟨store, persists, mirrors⟩ := persist_run_of_mirrors kept.wellFormed.toSound kept.persisting
    kept.mirrors (State.leaves_all ..)
  have persistent : RecordStore.isPersistent registry.store = true := rfl
  rw [sync, get_bind_run]
  simp only [persistent, kept.persisting, if_true]
  rw [bind_run, persists]
  exact ⟨kept.wellFormed, mirrors, kept.persisting, kept.immediate⟩

/-- Only another program that edits the store can break the mirror. -/
theorem kept_perform (kept : registry.Kept) {operation : Operation MemoryStore}
    (own : ∀ store, operation ≠ .edit store) : (registry.perform operation).Kept := by
  have wellFormed := wellFormed_perform kept.wellFormed operation
  cases operation with
  | serve request => exact kept_serve kept request
  | bindAll =>
      have mirrored := kept.mirrors.relinked State.lookup_bindAll fun _ => State.content_bindAll
      exact ⟨wellFormed, mirrored, kept.persisting, kept.immediate⟩
  | unbindAll =>
      have mirrored := kept.mirrors.relinked State.lookup_unbindAll fun _ => State.content_unbindAll
      exact ⟨wellFormed, mirrored, kept.persisting, kept.immediate⟩
  | restore => exact kept_restore kept
  | sync => exact kept_sync kept
  | edit store => exact absurd rfl (own store)

theorem kept_performAll (kept : registry.Kept) {operations : List (Operation MemoryStore)}
    (own : ∀ store, .edit store ∉ operations) : (registry.performAll operations).Kept := by
  induction operations generalizing registry with
  | nil => exact kept
  | cons operation rest ih =>
      refine ih (kept_perform kept fun store same => own store (same ▸ .head _)) fun store member => ?_
      exact own store (.tail _ member)

/-- Through a run that writes at once over a store of its own, the store lists the names that there are
but for that of the active playlist where another one shares it, has the records of their collections,
and knows which playlist is active. -/
theorem performAll_mirrors (config : Config) (library : MediaLibrary)
    (immediate : config.persistence = .immediate) (operations : List (Operation MemoryStore))
    (own : ∀ store, .edit store ∉ operations) :
    let registry := ({ config, library, store := {} } : Registry MemoryStore).performAll operations
    (∀ space, RecordStore.list registry.store space = .ok
      ((registry.list space).filter fun name => ¬ registry.state.StandsForAnother ⟨space, name⟩)) ∧
    (∀ address record, RecordStore.get registry.store address = .ok record ↔
      ∃ tree, registry.state.get? address = some tree ∧
        ¬ registry.state.StandsForAnother address ∧ record = Record.write tree) ∧
    RecordStore.getActive registry.store = .ok registry.state.activeTarget := by
  intro registry
  have kept : registry.Kept := kept_performAll (kept_empty config library immediate) own
  exact ⟨kept.mirrors.list_eq kept.wellFormed.toSound, fun _ _ => kept.mirrors.get_eq_ok_iff,
    congrArg Except.ok kept.mirrors.active⟩

/-- A playlist that is made active is listed under its own name only, also when it is taken over. -/
theorem performAll_mirrors_picks :
    let operations : List (Operation MemoryStore) :=
      [.serve (.create 1),
        .serve (.save ⟨.playlists, "Picks"⟩ (.leaf ⟨0, none⟩ { kind := .list .list })),
        .serve (.activate "Picks"), .restore]
    let registry := ({ config := { persistence := .immediate }, store := {} } :
      Registry MemoryStore).performAll operations
    registry.list .playlists = ["Default", "Picks", activeName] ∧
      RecordStore.list registry.store .playlists = .ok ["Default", "Picks"] ∧
      RecordStore.getActive registry.store = .ok (some "Picks") := by
  intro operations registry
  have names : registry.list .playlists = ["Default", "Picks", activeName] := by
    subst registry operations
    decide +kernel
  have target : registry.state.activeTarget = some "Picks" := by
    subst registry operations
    decide +kernel
  have stands : ∀ name, registry.state.StandsForAnother ⟨.playlists, name⟩ ↔ name = activeName :=
    fun name => by simp [State.standsForAnother_iff, target]
  have listed : (registry.list .playlists).filter
      (fun name => ¬ registry.state.StandsForAnother ⟨.playlists, name⟩) = ["Default", "Picks"] := by
    simp only [names, stands]
    decide
  have own : ∀ store, .edit store ∉ operations := fun store => by simp [operations]
  obtain ⟨lists, -, active⟩ :=
    performAll_mirrors { persistence := .immediate } .absent rfl operations own
  subst registry
  rw [target] at active
  exact ⟨names, (lists .playlists).trans (congrArg Except.ok listed), active⟩

end Registry

end Medley
