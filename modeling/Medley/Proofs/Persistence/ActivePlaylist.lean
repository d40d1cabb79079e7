import Medley.Proofs.Persistence.Mirroring
import Medley.Proofs.Persistence.Protection
import Medley.Proofs.Registry.Aliases

/-!
# The name of the active playlist

A registry does not note which playlist was made the active one: the name for it shares a collection
with that playlist, and the other names of the collection say which playlist is meant.  So of the
playlists that share a collection the first one is told, whichever of them was asked for, and it is the
one that is written and taken over again (`Registry.active_after_activate`).
-/

namespace Medley

namespace State

variable {state : State} {handle : Handle} {name first other : String}

/-- The first of the playlists, in the order of their names, that share a collection with one. -/
structure Foremost (state : State) (name first : String) : Prop where
  different : first ≠ activeName
  shares : state.SharesTree ⟨.playlists, first⟩ ⟨.playlists, name⟩
  least : ∀ other, other ≠ activeName →
    state.SharesTree ⟨.playlists, other⟩ ⟨.playlists, name⟩ → first ≤ other

theorem Foremost.unique (foremost : state.Foremost name first) (also : state.Foremost name other) :
    first = other :=
  Std.le_antisymm (foremost.least other also.different also.shares)
    (also.least first foremost.different foremost.shares)

/-- Playlists that share a collection have the same first name. -/
theorem Foremost.congr {another : String}
    (same : state.lookup ⟨.playlists, another⟩ = state.lookup ⟨.playlists, name⟩)
    (foremost : state.Foremost name first) : state.Foremost another first := by
  obtain ⟨different, shares, least⟩ := foremost
  simp only [SharesTree, ← same] at shares least
  exact ⟨different, shares, least⟩

theorem aliases_sorted (state : State) (handle : Handle) (space : Namespace) :
    (state.aliases handle space).Pairwise (· < ·) := by
  rw [aliases, List.pairwise_map]
  exact ((state.names space).sorted.sublist List.filter_sublist).imp compareOfLessAndEq_eq_lt.1

theorem foremost_of_activeTarget (active : state.activeTarget = some first) :
    state.Foremost activeName first := by
  obtain ⟨different, handle, leads, found⟩ := exists_of_activeTarget active
  refine ⟨different, ⟨handle, found, leads⟩, ?_⟩
  rintro other elsewhere ⟨handle', found', leads'⟩
  obtain rfl : handle = handle' := Option.some.inj (leads.symm.trans leads')
  have first_found : (state.aliases handle .playlists).find? (fun name => name != activeName) =
      some first := by
    rw [activeTarget, leads] at active
    exact active
  obtain ⟨-, before, after, splits, skipped⟩ := List.find?_eq_some_iff_append.1 first_found
  have sorted := state.aliases_sorted handle .playlists
  have member := mem_aliases.2 found'
  rw [splits] at sorted member
  rcases List.mem_append.1 member with early | late
  · have only : other = activeName := by simpa using skipped other early
    exact absurd only elsewhere
  · rcases List.mem_cons.1 late with rfl | late
    · exact Std.le_refl _
    · have ahead := (List.pairwise_cons.1 (List.pairwise_append.1 sorted).2.1).1 other late
      exact Std.le_of_lt ahead

/-- The playlist that is told as the active one is the first of those that are meant. -/
theorem activeTarget_eq_some : state.activeTarget = some first ↔ state.Foremost activeName first := by
  refine ⟨foremost_of_activeTarget, fun foremost => ?_⟩
  cases active : state.activeTarget with
  | none =>
      obtain ⟨handle, found, leads⟩ := foremost.shares
      exact absurd (activeTarget_eq_none.1 active leads found) foremost.different
  | some other => exact congrArg some ((foremost_of_activeTarget active).unique foremost)

/-- A playlist is the first of those that share its collection if no other one comes before it. -/
theorem exists_foremost (different : name ≠ activeName)
    (same : state.lookup ⟨.playlists, activeName⟩ = state.lookup ⟨.playlists, name⟩)
    (found : (state.lookup ⟨.playlists, name⟩).isSome) :
    ∃ first, state.Foremost name first ∧ state.activeTarget = some first := by
  obtain ⟨handle, leads⟩ := Option.isSome_iff_exists.1 found
  cases active : state.activeTarget with
  | none => exact absurd (activeTarget_eq_none.1 active (same.trans leads) leads) different
  | some first => exact ⟨first, (foremost_of_activeTarget active).congr same.symm, rfl⟩

/-- A playlist with a collection of its own is not meant by the active one. -/
theorem Sound.activeTarget_insert (sound : state.Sound) {address : Address} {node : Node}
    (free : state.lookup address = none) (elsewhere : address ≠ ⟨.playlists, activeName⟩)
    (active : state.activeTarget = some first) :
    (state.insert address node).activeTarget = some first := by
  have unused := sound.lookup_ne_allocate node
  obtain ⟨different, ⟨handle, found, leads⟩, least⟩ := activeTarget_eq_some.1 active
  have stays : ∀ {place : Address}, place ≠ address →
      (state.insert address node).lookup place = state.lookup place := fun other =>
    (lookup_insert ..).trans (if_neg other)
  refine activeTarget_eq_some.2 ⟨different, ⟨handle, ?_, ?_⟩, ?_⟩
  · rw [stays, found]
    rintro rfl
    rw [free] at found
    cases found
  · rw [stays elsewhere.symm, leads]
  · rintro other apart ⟨shared, here, there⟩
    rw [stays elsewhere.symm] at there
    refine least other apart ⟨shared, ?_, there⟩
    rw [lookup_insert] at here
    split at here
    · next =>
      cases here
      exact absurd there (unused _)
    · exact here

end State

namespace Registry

section Settings

variable {σ : Type} [RecordStore σ] (registry : Registry σ)

theorem config_persist (spaces : List Namespace) :
    ((persist spaces).run registry).2.config = registry.config := by
  obtain ⟨result, store, written⟩ := registry.persist_cases spaces
  rw [written]

theorem config_linkAll (persistence : Persistence) (created : Bool) (state : State) :
    ((linkAll persistence created state).run registry).2.config = registry.config := by
  cases created with
  | false => rfl
  | true =>
      cases persistence with
      | deferred => rfl
      | immediate => exact (registry.withState state.bindAll).config_persist [.playlists]

theorem config_settle : ((settle : Call σ Unit).run registry).2.config = registry.config := by
  rw [settle, get_bind_run]
  cases registry.config.createDefaultPlaylist with
  | false => exact registry.config_linkAll registry.config.persistence false registry.state
  | true =>
      let made := createDefault registry.state registry.nextIdentity
      exact config_linkAll { registry with nextIdentity := made.2 } registry.config.persistence
        made.1.1 made.1.2

theorem config_restoreNamespace (space : Namespace) :
    ((restoreNamespace space).run registry).2.config = registry.config := by
  rw [restoreNamespace_run]
  split <;> rfl

theorem config_restoreActive :
    ((restoreActive : Call σ Unit).run registry).2.config = registry.config := by
  rw [restoreActive, modify_run]
  split
  · rfl
  · rfl
  · split <;> rfl

theorem config_restore : ((restore : Call σ Unit).run registry).2.config = registry.config := by
  have first := registry.config_restoreNamespace .collections
  have second := config_restoreNamespace ((restoreNamespace .collections).run registry).2 .playlists
  rw [restore_run, config_settle]
  split
  · exact (config_restoreActive _).trans (second.trans first)
  · exact second.trans first

theorem config_sync : ((sync : Call σ Unit).run registry).2.config = registry.config := by
  have persisted := registry.config_persist Namespace.all
  rw [sync, get_bind_run]
  cases RecordStore.isPersistent registry.store with
  | false => rfl
  | true =>
      cases registry.isPersisting with
      | false => rfl
      | true =>
          show ((persist Namespace.all >>= fun _ => modify _).run registry).2.config = _
          rw [bind_run]
          cases ((persist Namespace.all).run registry).1 <;> exact persisted

/-- A registry keeps its configuration. -/
theorem config_performAll (operations : List (Operation σ)) :
    (registry.performAll operations).config = registry.config := by
  induction operations generalizing registry with
  | nil => rfl
  | cons operation rest ih =>
      refine (ih (registry.perform operation)).trans ?_
      cases operation with
      | serve request => exact (registry.settings_serve request).1
      | bindAll => rfl
      | unbindAll => rfl
      | restore => exact registry.config_restore
      | sync => exact registry.config_sync
      | edit store => rfl

end Settings

section Default

variable {state : State} {first : String}

theorem activateDefault_of_active (active : state.activeTarget = some first) (created : Bool)
    (next : Nat) : activateDefault created state next = ((created, state), next) := by
  obtain ⟨-, handle, leads, -⟩ := State.exists_of_activeTarget active
  rw [activateDefault, leads]
  rfl

/-- Where a playlist is active, making the default one leaves it so. -/
theorem activeTarget_createDefault (sound : state.Sound) (active : state.activeTarget = some first)
    (next : Nat) : (createDefault state next).1.2.activeTarget = some first := by
  unfold createDefault
  by_cases there : (state.lookup ⟨.playlists, defaultPlaylist⟩).isSome
  · rw [if_pos there]
    show (activateDefault false state next).1.2.activeTarget = _
    rw [activateDefault_of_active active, active]
  · rw [if_neg there]
    have free := Option.not_isSome_iff_eq_none.1 there
    let made := state.insert ⟨.playlists, defaultPlaylist⟩ (.leaf ⟨next, none⟩ { kind := .list .list })
    have still : made.activeTarget = some first := sound.activeTarget_insert free (by decide) active
    show (activateDefault true made (next + 1)).1.2.activeTarget = _
    rw [activateDefault_of_active still, still]

end Default

section Restoring

variable {registry : Registry MemoryStore} {state : State} {first : String}

/-- Over a store in memory a restore always ends well. -/
theorem exists_settle_run (sound : registry.state.Sound) :
    ∃ after, (settle : Call MemoryStore Unit).run registry = (.ok (), after) := by
  have links : ∀ (registry : Registry MemoryStore) {state : State} (created : Bool), state.Sound →
      ∃ after, (linkAll registry.config.persistence created state).run registry = (.ok (), after) := by
    intro registry state created sound
    cases created with
    | false => exact ⟨_, rfl⟩
    | true =>
        cases registry.config.persistence with
        | deferred => exact ⟨_, rfl⟩
        | immediate =>
            let linked := registry.withState state.bindAll
            obtain ⟨store, runs, -⟩ :=
              writeNamespaces_run sound.bindAll.toSound [.playlists] registry.store
            show ∃ after, (persist [.playlists]).run linked = (.ok (), after)
            rw [persist_run]
            split
            · have written := congrArg Prod.fst runs
              exact ⟨_, Prod.ext written rfl⟩
            · exact ⟨_, rfl⟩
  rw [settle, get_bind_run]
  cases registry.config.createDefaultPlaylist with
  | false => exact links registry false sound
  | true =>
      let made := createDefault registry.state registry.nextIdentity
      exact links { registry with nextIdentity := made.2 } made.1.1
        (sound_createDefault sound registry.nextIdentity)

/-- From a store with the records of the playlists and the name of the active one, this one is active
again. -/
theorem active_restore (sound : state.Sound) (soundHere : registry.state.Sound)
    (records : ∀ name, registry.store.get? ⟨.playlists, name⟩ =
      (state.recorded ⟨.playlists, name⟩).map Record.write)
    (noted : registry.store.active = some first) (active : state.activeTarget = some first) :
    ∃ after, restore.run registry = (.ok (), after) ∧ after.active = .ok first := by
  let between := ((restoreNamespace .collections).run registry).2
  have same : between.store = registry.store := registry.store_restoreNamespace .collections
  have soundBetween : between.state.Sound := registry.sound_restoreNamespace soundHere .collections
  rw [← same] at records noted
  obtain ⟨filled, next, runs, soundFilled, apart, -, shapes⟩ :=
    @restoreNamespace_of_records _ between sound soundBetween _ records
  obtain ⟨trees, reads, -⟩ := readNamespace_of_records sound records
  -- The playlist has a record, so there is a collection for its name again.
  obtain ⟨different, handle, -, leads⟩ := State.exists_of_activeTarget active
  have there : (filled.lookup ⟨.playlists, first⟩).isSome := by
    rw [← soundFilled.shapeAt_isSome, shapes, if_pos rfl, State.recorded,
      if_neg fun both => different (congrArg Address.name both.1), sound.shapeAt_isSome, leads]
    rfl
  obtain ⟨handle, found⟩ := Option.isSome_iff_exists.1 there
  let pointed := filled.point ⟨.playlists, activeName⟩ handle
  have soundPointed : pointed.Sound := soundFilled.pointActive found
  have target : pointed.activeTarget = some first := apart.activeTarget_point different found
  let reached : Registry MemoryStore := { between with state := pointed, nextIdentity := next }
  have restores : (restore : Call MemoryStore Unit).run registry = settle.run reached := by
    rw [restore_run, ← same, reads]
    simp only
    rw [show (restoreNamespace .playlists).run between = _ from runs, restoreActive_run,
      State.reactivated]
    simp only [noted, Option.bind_some, found]
    rfl
  obtain ⟨after, settles⟩ := @exists_settle_run reached soundPointed
  refine ⟨after, restores.trans settles, ?_⟩
  have settled : after.state.activeTarget = some first := by
    have state_after := reached.state_settle
    rw [settles] at state_after
    rw [state_after, State.activeTarget_bindAll]
    split
    · exact activeTarget_createDefault soundPointed target _
    · exact target
  obtain ⟨-, handle, leads, -⟩ := State.exists_of_activeTarget settled
  rw [Registry.active, leads, settled]
  rfl

end Restoring

section Activating

variable {registry : Registry MemoryStore} {state : State} {name : String}

/-- A change that is written at once ends as the writing does. -/
theorem change_run_of_persist {σ : Type} [RecordStore σ] {registry after : Registry σ}
    {spaces : List Namespace} {action : State → Fresh (Except Error State)} {next : Nat}
    (immediate : registry.config.persistence = .immediate)
    (acts : action registry.state registry.nextIdentity = (.ok state, next))
    (writes : (persist spaces).run { registry with state, nextIdentity := next } = (.ok (), after)) :
    (change spaces action).run registry = (.ok (), after) := by
  rw [change_run, acts]
  simp only [immediate, writes]

/-- A playlist that is there is made the active one, and the playlists are written unless nothing is
written any more. -/
theorem serve_activate (immediate : registry.config.persistence = .immediate) (sound : state.Sound)
    (activated : registry.state.activate name = .ok state) :
    ∃ store, registry.serve (.activate name) = { registry with state, store } ∧
      (registry.isPersisting = true →
        (∀ name, store.get? ⟨.playlists, name⟩ =
          (state.recorded ⟨.playlists, name⟩).map Record.write) ∧
        store.active = state.activeTarget) := by
  let changed : Registry MemoryStore := { registry with state }
  have acts : (pure (registry.state.activate name) : Fresh (Except Error State))
      registry.nextIdentity = (.ok state, registry.nextIdentity) :=
    congrArg (·, registry.nextIdentity) activated
  have serves : ∀ {after}, (persist [.playlists]).run changed = (.ok (), after) →
      registry.serve (.activate name) = after := fun writes =>
    congrArg Prod.snd (change_run_of_persist immediate acts writes)
  cases persisting : registry.isPersisting with
  | false =>
      have unwritten := @persist_run_of_stopped _ _ changed persisting [.playlists]
      exact ⟨registry.store, persisting ▸ serves unwritten, nofun⟩
  | true =>
      obtain ⟨store, runs, records, noted⟩ := writeNamespaces_run sound [.playlists] registry.store
      have written : (persist [.playlists]).run changed = (.ok (), { changed with store }) := by
        rw [persist_run]
        simp only [changed, persisting, runs]
        rfl
      refine ⟨store, persisting ▸ serves written, fun _ => ⟨fun name => ?_, ?_⟩⟩
      · rw [records, if_pos (.head _)]
      · rw [noted, if_pos (.head _)]

/-- Through any run that writes at once over a store in memory, a playlist that is made the active one
is told under the first of the names that share its collection, and under this name the active playlist
is taken over from the store, unless a restore has stopped the registry from writing: then the store
stays as it was. -/
theorem active_after_activate (config : Config) (library : MediaLibrary) (store : MemoryStore)
    (nextIdentity : Nat) (immediate : config.persistence = .immediate)
    (operations : List (Operation MemoryStore)) (name : String) (different : name ≠ activeName) :
    let start : Registry MemoryStore := { config, library, store, nextIdentity }
    let registry := start.performAll operations
    let after := registry.serve (.activate name)
    registry.Accepts (.activate name) →
      ∃ first, after.state.Foremost name first ∧ after.active = .ok first ∧
        (registry.isPersisting = true → ∀ blank : Registry MemoryStore, blank.state = {} →
          blank.store = after.store →
          ∃ restored, restore.run blank = (.ok (), restored) ∧ restored.active = .ok first) ∧
        (registry.isPersisting = false → after.store = registry.store) := by
  intro start registry after accepted
  have wellFormed : registry.state.WellFormed := wellFormed_performAll .empty operations
  have settled : registry.config.persistence = .immediate := by
    rw [show registry.config = start.config from start.config_performAll operations]
    exact immediate
  obtain ⟨state, activated, -⟩ :=
    (registry.serve_cases (.activate name)).resolve_right fun refused => refused.1 accepted
  obtain ⟨handle, shape, leads, -, redirects, lookups⟩ := wellFormed.activate activated
  have sound := redirects.wellFormed.toSound
  obtain ⟨store, serves, written⟩ := serve_activate settled sound activated
  -- The name keeps its collection, which the active playlist now shares.
  have stays : state.lookup ⟨.playlists, name⟩ = some handle := by
    rw [lookups, if_neg fun same => different (congrArg Address.name same), leads]
  have shares : state.lookup ⟨.playlists, activeName⟩ = some handle := (lookups _).trans (if_pos rfl)
  obtain ⟨first, foremost, active⟩ := State.exists_foremost different (shares.trans stays.symm)
    (Option.isSome_iff_exists.2 ⟨handle, stays⟩)
  have same : after = { registry with state, store } := serves
  refine ⟨first, ?_, ?_, fun persisting blank empty taken => ?_, fun stopped => ?_⟩
  · rw [same]
    exact foremost
  · rw [same, Registry.active]
    simp only [shares, active]
    rfl
  · obtain ⟨records, noted⟩ := written persisting
    have taken_store : blank.store = store := taken.trans (congrArg Registry.store same)
    rw [← taken_store] at records noted
    exact active_restore sound (empty ▸ State.WellFormed.empty.toSound) records (noted.trans active)
      active
  · exact store_serve stopped (.activate name)

/-- A list is a playlist under two names, and the later one is made active: the earlier one is told, also
by a registry that takes it over. -/
theorem active_after_activate_second_name :
    let list : Node := .leaf ⟨0, none⟩ { kind := .list .list }
    let start : Registry MemoryStore := { config := { persistence := .immediate }, store := {} }
    let registry := start.performAll
      [.serve (.create 1), .serve (.save ⟨.playlists, "Sung"⟩ list),
        .serve (.save ⟨.playlists, "Played"⟩ list)]
    let after := registry.serve (.activate "Sung")
    let blank : Registry MemoryStore := { store := after.store }
    registry.Accepts (.activate "Sung") ∧ after.active = .ok "Played" ∧
      ∃ restored, restore.run blank = (.ok (), restored) ∧ restored.active = .ok "Played" := by
  intro list start registry after blank
  have accepted : registry.Accepts (.activate "Sung") := by
    unfold Accepts
    subst registry start list
    decide +kernel
  have told : after.active = .ok "Played" := by
    subst after registry start list
    decide +kernel
  have persisting : registry.isPersisting = true := by
    subst registry start list
    decide +kernel
  obtain ⟨first, -, same, restores, -⟩ := active_after_activate { persistence := .immediate } .absent {}
    0 rfl _ "Sung" (by decide) accepted
  obtain rfl : first = "Played" := Except.ok.inj (same.symm.trans told)
  have taken : ∀ registry : Registry MemoryStore,
      ({ store := registry.store } : Registry MemoryStore).store = registry.store := fun _ => rfl
  exact ⟨accepted, told, restores persisting blank rfl (taken after)⟩

/-- The active playlist need not be told under the name that was asked for, here or where it is taken
over; and what is made active while nothing is written is not taken over at all. -/
theorem active_not_as_activated :
    let list : Node := .leaf ⟨0, none⟩ { kind := .list .list }
    let config : Config := { persistence := .immediate, createDefaultPlaylist := false }
    let shared := ({ config, store := {} } : Registry MemoryStore).performAll
      [.serve (.create 1), .serve (.save ⟨.playlists, "A"⟩ list),
        .serve (.save ⟨.playlists, "B"⟩ list)]
    let spoiled := ({ config, store := { collections := SortedMap.ofList [("Broken", "x")] } } :
      Registry MemoryStore).performAll
        [.restore, .serve (.create 1), .serve (.save ⟨.playlists, "Mine"⟩ list)]
    let restored (registry : Registry MemoryStore) : Registry MemoryStore :=
      (restore.run { config, store := registry.store }).2
    (shared.Accepts (.activate "B") ∧ (shared.serve (.activate "B")).active = .ok "A" ∧
      (restored (shared.serve (.activate "B"))).active = .ok "A") ∧
    spoiled.Accepts (.activate "Mine") ∧ (spoiled.serve (.activate "Mine")).active = .ok "Mine" ∧
      (restored (spoiled.serve (.activate "Mine"))).active ≠ .ok "Mine" := by
  intro list config shared spoiled restored
  unfold Accepts
  subst restored shared spoiled config list
  refine ⟨⟨?_, ?_, ?_⟩, ?_, ?_, ?_⟩ <;> decide +kernel

end Activating

end Registry

end Medley
