import Medley.Proofs.Meaning.Unsharing
import Medley.Proofs.Persistence.Mirror
import Medley.Proofs.Registry.Restoring

/-!
# Restoring what was written

A registry that restores from a store takes every record over under its name.  If the store mirrors the
stored collections of another registry, both then have equal collections under the same names, and the
same playlist is the active one; only that names which shared a collection may each have their own
(`Registry.restore_of_mirrors`).  So what could be compiled before can be compiled again, to the same
query (`Registry.restore_serveAll`).
-/

namespace Medley

/-- Maps with the same keys list them in the same order. -/
theorem SortedMap.keys_eq_of_isSome {κ : Type} [Ord κ] [Std.TransOrd κ] [Std.LawfulEqOrd κ]
    {α β : Type} {left : SortedMap κ α} {right : SortedMap κ β}
    (same : ∀ key, (left.get? key).isSome = (right.get? key).isSome) : left.keys = right.keys := by
  have plain : left.mapValues (fun _ => ()) = right.mapValues (fun _ => ()) := by
    refine ext_get? fun key => ?_
    rw [get?_mapValues, get?_mapValues]
    have there := same key
    generalize left.get? key = here at there ⊢
    generalize right.get? key = also at there ⊢
    cases here <;> cases also <;> first | rfl | cases there
  rw [← keys_mapValues left fun _ => (), plain, keys_mapValues]

namespace State

variable {state : State} {address other : Address} {handle : Handle} {node : Node}

/-- Every name leads to a collection of its own. -/
def Unshared (state : State) : Prop :=
  ∀ {left right : Address} {handle : Handle}, state.lookup left = some handle →
    state.lookup right = some handle → left = right

theorem Sound.content_insert (sound : state.Sound) (free : state.lookup address = none) :
    (state.insert address node).content handle =
      if handle = (state.allocate node).1 then some node.shape else state.content handle := by
  rw [State.insert, content_repoint, lookup_allocate, free, if_neg (by simp),
    sound.tidy.content_allocate]

theorem Sound.shapeAt_insert (sound : state.Sound) (free : state.lookup address = none) :
    (state.insert address node).shapeAt other =
      if other = address then some node.shape else state.shapeAt other := by
  rw [shapeAt, lookup_insert]
  by_cases same : other = address
  · rw [if_pos same, if_pos same, Option.bind_some, sound.content_insert free, if_pos rfl]
  · rw [if_neg same, if_neg same, shapeAt]
    cases leads : state.lookup other with
    | none => rfl
    | some handle =>
        rw [Option.bind_some, sound.content_insert free, if_neg, Option.bind_some]
        exact fun new => sound.lookup_ne_allocate node other (new ▸ leads)

theorem Sound.validate_of_recorded (sound : state.Sound) {shape : Shape}
    (recorded : state.recorded address = some shape) : shape.validate = .ok () := by
  rw [State.recorded] at recorded
  split at recorded
  · cases recorded
  · obtain ⟨handle, tree, -, stored, rfl⟩ := shapeAt_eq_some.1 recorded
    exact sound.valid (content_of_resolve stored)

theorem Unshared.apart (unshared : state.Unshared) (space : Namespace) : state.Apart space :=
  fun here there => congrArg Address.name (unshared here there)

/-- No collection is shared between the namespaces. -/
theorem Sound.unshared (sound : state.Sound) (apart : ∀ space, state.Apart space) :
    state.Unshared := by
  rintro ⟨space, left⟩ ⟨other, right⟩ handle here there
  obtain rfl : space = other := sound.separate here there
  rw [apart space here there]

section Active

theorem shapeAt_point :
    (state.point address handle).shapeAt other =
      if other = address then state.content handle else state.shapeAt other := by
  have contents : (state.point address handle).content = state.content :=
    funext fun _ => content_point
  rw [shapeAt, lookup_point, contents]
  split <;> rfl

theorem exists_of_activeTarget {name : String} (active : state.activeTarget = some name) :
    name ≠ activeName ∧ ∃ handle, state.lookup ⟨.playlists, activeName⟩ = some handle ∧
      state.lookup ⟨.playlists, name⟩ = some handle := by
  obtain ⟨handle, leads, found⟩ := Option.bind_eq_some_iff.1 active
  have different := List.find?_some found
  exact ⟨by simpa using different, handle, leads, mem_aliases.1 (List.mem_of_find?_eq_some found)⟩

theorem activeTarget_eq_none :
    state.activeTarget = none ↔ ∀ {handle name}, state.lookup ⟨.playlists, activeName⟩ = some handle →
      state.lookup ⟨.playlists, name⟩ = some handle → name = activeName := by
  refine (Option.bind_eq_none_iff (o := state.lookup ⟨.playlists, activeName⟩)).trans ?_
  constructor
  · intro none handle name leads found
    have all := List.find?_eq_none.1 (none handle leads) name (mem_aliases.2 found)
    simpa using all
  · intro only handle leads
    refine List.find?_eq_none.2 fun name member => ?_
    simpa using only leads (mem_aliases.1 member)

/-- The state with what was read back, once the active playlist is known again. -/
def reactivated (state : State) (active : Option String) : State :=
  match active.bind fun name => state.lookup ⟨.playlists, name⟩ with
  | some handle => state.point ⟨.playlists, activeName⟩ handle
  | none => state

section Point

variable {name : String} (different : name ≠ activeName)
  (found : state.lookup ⟨.playlists, name⟩ = some handle)

include different found

/-- Where nothing else shares a playlist, it is the only other name for the active one. -/
theorem Apart.activeTarget_point (apart : state.Apart .playlists) :
    (state.point ⟨.playlists, activeName⟩ handle).activeTarget = some name := by
  have elsewhere : ∀ {name : String}, name ≠ activeName →
      (state.point ⟨.playlists, activeName⟩ handle).lookup ⟨.playlists, name⟩ =
        state.lookup ⟨.playlists, name⟩ := fun different =>
    lookup_point.trans (if_neg fun same => different (congrArg Address.name same))
  have there : (state.point ⟨.playlists, activeName⟩ handle).lookup ⟨.playlists, activeName⟩ =
      some handle := lookup_point.trans (if_pos rfl)
  cases target : (state.point ⟨.playlists, activeName⟩ handle).activeTarget with
  | none =>
      have only := activeTarget_eq_none.1 target there ((elsewhere different).trans found)
      exact absurd only different
  | some other =>
      obtain ⟨different', handle', leads, found'⟩ := exists_of_activeTarget target
      rw [there] at leads
      rw [elsewhere different', ← leads] at found'
      exact congrArg some (apart found' found)

/-- Where every name leads to a collection of its own, all but the active playlist to the same as in
another state, the active one is shared again once it is pointed to. -/
theorem Unshared.unshares_point {before : State} (unshared : state.Unshared)
    (shared : before.lookup ⟨.playlists, activeName⟩ = before.lookup ⟨.playlists, name⟩)
    (alike : ∀ address, address ≠ ⟨.playlists, activeName⟩ →
      state.shapeAt address = before.shapeAt address) :
    before.Unshares (state.point ⟨.playlists, activeName⟩ handle) := by
  have other : (⟨.playlists, name⟩ : Address) ≠ ⟨.playlists, activeName⟩ := fun same =>
    different (congrArg Address.name same)
  refine ⟨fun address => ?_, fun here also => ?_⟩
  · rw [shapeAt_point]
    split
    · next stands => rw [← shapeAt_of_lookup found, alike _ other, stands, shapeAt, shapeAt, shared]
    · next elsewhere => exact alike address elsewhere
  · rw [lookup_point] at here also
    split at here <;> split at also
    · next first second => rw [first, second]
    · next first _ =>
      cases here
      rw [first, unshared also found, shared]
    · next _ second =>
      cases also
      rw [second, unshared here found, shared]
    · rw [unshared here also]

end Point

/-- Knowing the active playlist makes up for the record that was not written. -/
theorem Sound.reactivated {filled : State} (sound : state.Sound) (soundFilled : filled.Sound)
    (unshared : filled.Unshared) (shapes : ∀ address, filled.shapeAt address = state.recorded address) :
    let restored := filled.reactivated state.activeTarget
    restored.Sound ∧ state.Unshares restored ∧ restored.activeTarget = state.activeTarget := by
  cases active : state.activeTarget with
  | none =>
      have alike : ∀ address, filled.shapeAt address = state.shapeAt address := by
        intro address
        rw [shapes, State.recorded, active, if_neg (by simp)]
      refine ⟨soundFilled, ⟨alike, fun here also => congrArg _ (unshared here also)⟩, ?_⟩
      refine activeTarget_eq_none.2 fun leads found => ?_
      exact congrArg Address.name (unshared found leads)
  | some name =>
      obtain ⟨different, shared, leads, leadsName⟩ := exists_of_activeTarget active
      -- The one record that is not written is that of the active playlist.
      have alike : ∀ address, address ≠ ⟨.playlists, activeName⟩ →
          filled.shapeAt address = state.shapeAt address := by
        intro address elsewhere
        rw [shapes, State.recorded, if_neg fun both => elsewhere both.1]
      have there : (filled.lookup ⟨.playlists, name⟩).isSome := by
        rw [← soundFilled.shapeAt_isSome, alike _ fun same => different (congrArg Address.name same),
          sound.shapeAt_isSome, leadsName]
        rfl
      obtain ⟨handle, found⟩ := Option.isSome_iff_exists.1 there
      have restored : filled.reactivated (some name) = filled.point ⟨.playlists, activeName⟩ handle := by
        rw [State.reactivated, Option.bind_some, found]
      rw [restored]
      exact ⟨soundFilled.pointActive found,
        unshared.unshares_point different found (leads.trans leadsName.symm) alike,
        Apart.activeTarget_point different found (unshared.apart .playlists)⟩

theorem shapeAt_bindAll (state : State) : state.bindAll.shapeAt = state.shapeAt := by
  have contents : state.bindAll.content = state.content := funext fun _ => content_bindAll
  funext address
  rw [shapeAt, shapeAt, lookup_bindAll, contents]

theorem activeTarget_bindAll : state.bindAll.activeTarget = state.activeTarget :=
  activeTarget_congr fun name => congrFun lookup_bindAll ⟨.playlists, name⟩

theorem Unshares.bindAll {after : State} (unshares : state.Unshares after) :
    state.Unshares after.bindAll where
  shapes address := (congrFun (shapeAt_bindAll after) address).trans (unshares.shapes address)
  shared here also := unshares.shared (lookup_bindAll ▸ here) (lookup_bindAll ▸ also)

end Active

end State

namespace Registry

variable {state : State}

/-- Collections that are taken over under names not in use stand there, and others stay. -/
theorem shapeAt_insertAll (sound : state.Sound) {space : Namespace}
    {trees : List (String × Shape)} (valid : ∀ entry ∈ trees, entry.2.validate = .ok ())
    (once : (trees.map Prod.fst).Nodup)
    (free : ∀ name ∈ trees.map Prod.fst, state.lookup ⟨space, name⟩ = none) (next : Nat) :
    let filled := (insertAll space trees state next).1
    (∀ entry ∈ trees, filled.shapeAt ⟨space, entry.1⟩ = some entry.2) ∧
      ∀ address, ¬ (address.space = space ∧ address.name ∈ trees.map Prod.fst) →
        filled.shapeAt address = state.shapeAt address := by
  induction trees generalizing state next with
  | nil => exact ⟨fun _ member => (nomatch member), fun _ _ => rfl⟩
  | cons entry rest ih =>
      obtain ⟨name, shape⟩ := entry
      have keeps : (shape.number next).1.validate = .ok () :=
        Tree.validate_of_shape_eq (Tree.shape_number shape next).symm (valid _ (.head _))
      obtain ⟨absent, once⟩ := List.nodup_cons.1 once
      have freeRest : ∀ other ∈ rest.map Prod.fst,
          (state.insert ⟨space, name⟩ (shape.number next).1).lookup ⟨space, other⟩ = none := by
        intro other member
        rw [State.lookup_insert, if_neg]
        · exact free other (.tail _ member)
        · intro same
          cases same
          exact absent member
      obtain ⟨placed, kept⟩ := ih (sound.insert ⟨space, name⟩ keeps)
        (fun entry member => valid entry (.tail _ member)) once freeRest (shape.number next).2
      have inserted : ∀ other, (state.insert ⟨space, name⟩ (shape.number next).1).shapeAt other =
          if other = ⟨space, name⟩ then some (shape.number next).1.shape else state.shapeAt other :=
        fun other => sound.shapeAt_insert (free name (.head _))
      intro filled
      have same : filled = _ := congrArg Prod.fst (insertAll_cons space name shape rest next)
      rw [same]
      refine ⟨?_, fun address outside => ?_⟩
      · intro entry member
        rcases List.mem_cons.1 member with rfl | member
        · rw [kept _ fun both => absent both.2, inserted, if_pos rfl, Tree.shape_number,
            Tree.shape_shape]
        · exact placed entry member
      · rw [kept address fun both => outside ⟨both.1, .tail _ both.2⟩, inserted, if_neg]
        rintro rfl
        exact outside ⟨rfl, .head _⟩

/-- A record is read as what was written. -/
theorem readAt_write {shape : Shape} (valid : shape.validate = .ok ()) (address : Address) :
    Record.readAt address (Record.write shape) = .ok shape := by
  rw [Record.readAt, Record.read_write valid, Tree.shape_shape]
  simp only [valid]

/-- From a store with their records, the collections of a namespace are read as they were written. -/
theorem readNamespace_of_records {store : MemoryStore} (sound : state.Sound) {space : Namespace}
    (records : ∀ name, store.get? ⟨space, name⟩ = (state.recorded ⟨space, name⟩).map Record.write) :
    ∃ trees, readNamespace store space = .ok trees ∧ (trees.map Prod.fst).Nodup ∧
      (∀ name, name ∈ trees.map Prod.fst ↔ (state.recorded ⟨space, name⟩).isSome) ∧
      ∀ entry ∈ trees, state.recorded ⟨space, entry.1⟩ = some entry.2 := by
  have listed : ∀ name, name ∈ (store.records space).keys ↔ (state.recorded ⟨space, name⟩).isSome := by
    intro name
    have record : (store.records space).get? name =
        (state.recorded ⟨space, name⟩).map Record.write := records name
    rw [SortedMap.mem_keys_iff, record, Option.isSome_map]
  -- What a name is read as: an entry under that name, with what is recorded for it.
  have reads : ∀ name ∈ (store.records space).keys, ∃ entry : String × Shape,
      (do
        let record ← RecordStore.get store ⟨space, name⟩
        return (name, ← Record.readAt ⟨space, name⟩ record) : Except Error (String × Shape)) =
          .ok entry ∧ name = entry.1 ∧ state.recorded ⟨space, name⟩ = some entry.2 := by
    intro name member
    obtain ⟨shape, recorded⟩ := Option.isSome_iff_exists.1 ((listed name).1 member)
    refine ⟨(name, shape), ?_, rfl, recorded⟩
    have record := records name
    rw [recorded, Option.map_some] at record
    have got : RecordStore.get store ⟨space, name⟩ = .ok (Record.write shape) := by
      show (store.get? ⟨space, name⟩).elim _ _ = _
      rw [record]
      rfl
    have valid := sound.validate_of_recorded recorded
    rw [got]
    show (Record.readAt _ _ >>= _) = _
    rw [readAt_write valid]
    rfl
  obtain ⟨trees, each⟩ := exists_forall₂ reads
  have names : (store.records space).keys = trees.map Prod.fst := by
    rw [← List.forall₂_eq_eq_eq, List.forall₂_map_right_iff]
    exact each.imp fun _ _ holds => holds.2.1
  refine ⟨trees, List.mapM_eq_ok.2 (each.imp fun _ _ holds => holds.1), ?_, fun name => ?_, ?_⟩
  · rw [← names]
    exact SortedMap.nodup_keys _
  · rw [← names, listed]
  · intro entry member
    obtain ⟨name, -, -, rfl, recorded⟩ := exists_of_mem_right each member
    exact recorded

section Restoring

variable {registry : Registry MemoryStore} (mirrors : Mirrors registry.store state)

theorem restoreActive_run (registry : Registry MemoryStore) :
    restoreActive.run registry =
      (.ok (), registry.withState (registry.state.reactivated registry.store.active)) := by
  have stored : RecordStore.getActive registry.store = .ok registry.store.active := rfl
  rw [restoreActive, modify_run, stored, State.reactivated]
  cases registry.store.active with
  | none => rfl
  | some name =>
      simp only [Option.bind_some]
      cases registry.state.lookup ⟨.playlists, name⟩ <;> rfl

theorem settle_run (plain : registry.config.createDefaultPlaylist = false) :
    settle.run registry = (.ok (), registry.withState registry.state.bindAll) := by
  rw [settle, get_bind_run, plain]
  rfl

/-- A namespace gets the names that are written, each with a collection of its own, in place of its
own, and the other one stays. -/
theorem restoreNamespace_of_records (sound : state.Sound) (soundHere : registry.state.Sound)
    {space : Namespace}
    (records : ∀ name, registry.store.get? ⟨space, name⟩ =
      (state.recorded ⟨space, name⟩).map Record.write) :
    ∃ filled next, (restoreNamespace space).run registry =
        (.ok true, { registry with state := filled, nextIdentity := next }) ∧
      filled.Sound ∧ filled.Apart space ∧
      (∀ address, address.space ≠ space → filled.lookup address = registry.state.lookup address) ∧
      ∀ address, filled.shapeAt address =
        if address.space = space then state.recorded address else registry.state.shapeAt address := by
  obtain ⟨trees, reads, once, listed, each⟩ := readNamespace_of_records sound records
  have valid := validate_of_readNamespace reads
  have soundCleared := soundHere.clear space
  have empty : ∀ name, (registry.state.clear space).lookup ⟨space, name⟩ = none := fun name =>
    (State.lookup_clear space ⟨space, name⟩).trans (if_pos rfl)
  obtain ⟨placed, kept⟩ := shapeAt_insertAll soundCleared valid once (fun name _ => empty name)
    registry.nextIdentity
  let filled := insertAll space trees (registry.state.clear space) registry.nextIdentity
  refine ⟨filled.1, filled.2, ?_, sound_insertAll soundCleared valid _,
    apart_insertAll soundCleared (State.apart_clear space) valid _, fun address elsewhere => ?_, ?_⟩
  · rw [restoreNamespace_run, reads]
  · rw [lookup_insertAll elsewhere, State.lookup_clear, if_neg elsewhere]
  · rintro ⟨other, name⟩
    by_cases here : other = space
    · obtain rfl := here
      rw [if_pos rfl]
      cases recorded : state.recorded ⟨other, name⟩ with
      | none =>
          have absent : name ∉ trees.map Prod.fst := by
            rw [listed, recorded]
            exact Bool.false_ne_true
          rw [kept _ fun both => absent both.2, State.shapeAt, empty]
          rfl
      | some shape =>
          have present : name ∈ trees.map Prod.fst := by
            rw [listed, recorded]
            rfl
          obtain ⟨entry, member, rfl⟩ := List.mem_map.1 present
          rw [placed entry member, ← each entry member, recorded]
    · rw [if_neg here, kept _ fun both => here both.1, State.shapeAt_clear, if_neg here]

include mirrors

/-- Whatever a registry holds, it takes over from the store what is written there. -/
theorem restore_run_of_mirrors (sound : state.Sound) (soundHere : registry.state.Sound) :
    ∃ (filled : State) (next : Nat), restore.run registry = settle.run { registry with
        state := filled.reactivated state.activeTarget, nextIdentity := next } ∧
      filled.Sound ∧ filled.Unshared ∧ ∀ address, filled.shapeAt address = state.recorded address := by
  obtain ⟨first, nextFirst, runsFirst, soundFirst, apartFirst, -, shapesFirst⟩ :=
    restoreNamespace_of_records sound soundHere fun name => mirrors.records ⟨.collections, name⟩
  -- Playlists are read from the same store, with the collections there already.
  let between : Registry MemoryStore := { registry with state := first, nextIdentity := nextFirst }
  obtain ⟨filled, next, runs, soundFilled, apartFilled, lookups, shapes⟩ :=
    @restoreNamespace_of_records _ between sound soundFirst _
      fun name => mirrors.records ⟨.playlists, name⟩
  refine ⟨filled, next, ?_, soundFilled, soundFilled.unshared fun space => ?_, fun address => ?_⟩
  · rw [restore_eq, bind_run, runsFirst]
    show ((restoreNamespace .playlists >>= _).run between) = _
    rw [bind_run, runs]
    simp only [if_true]
    rw [bind_run, restoreActive_run, mirrors.active]
    rfl
  · cases space with
    | collections =>
        intro left right handle here there
        rw [lookups _ (by simp)] at here there
        exact apartFirst here there
    | playlists => exact apartFilled
  · rw [shapes]
    split
    · rfl
    · next elsewhere =>
      have here : address.space = .collections := by
        cases space : address.space with
        | collections => rfl
        | playlists => exact absurd space elsewhere
      rw [shapesFirst, if_pos here]

/-- An empty registry takes everything over from the store. -/
theorem restore_of_mirrors (sound : state.Sound) (blank : registry.state = {})
    (plain : registry.config.createDefaultPlaylist = false) :
    ∃ (filled : State) (next : Nat), restore.run registry = (.ok (), { registry with
        state := (filled.reactivated state.activeTarget).bindAll, nextIdentity := next }) ∧
      filled.Sound ∧ filled.Unshared ∧ ∀ address, filled.shapeAt address = state.recorded address := by
  have soundHere : registry.state.Sound := blank ▸ State.WellFormed.empty.toSound
  obtain ⟨filled, next, runs, filling⟩ := restore_run_of_mirrors mirrors sound soundHere
  exact ⟨filled, next, runs.trans (settle_run plain), filling⟩

end Restoring

/-- What a run of changes has written, whether they succeeded or not, restores to the same names, equal
collections and the same active playlist, and what could be compiled is compiled to the same query. -/
theorem restore_serveAll (config : Config) (library : MediaLibrary) (requests : List Request)
    (nextIdentity : Nat) :
    let settings := { config with persistence := .immediate, createDefaultPlaylist := false }
    let registry := ({ config := settings, library, store := {} } : Registry MemoryStore).serveAll requests
    let blank : Registry MemoryStore :=
      { config := settings, library, store := registry.store, nextIdentity }
    let restored := (restore.run blank).2
    (restore.run blank).1 = .ok () ∧ restored.isPersisting = true ∧
      (∀ space, restored.list space = registry.list space) ∧ restored.active = registry.active ∧
      ∀ address tree, registry.get address = .ok tree →
        ∃ tree', restored.get address = .ok tree' ∧ tree'.shape = tree.shape ∧
          ∀ params query, registry.compile tree params = .ok query →
            restored.compile tree' params = .ok query := by
  intro settings registry blank restored
  have kept : registry.Kept := kept_serveAll (kept_empty settings library rfl) requests
  have settled : registry.config = settings := (settings_serveAll _ requests).1
  have wellFormed := kept.wellFormed
  have mirrors : Mirrors blank.store registry.state := kept.mirrors
  obtain ⟨filled, next, runs, soundFilled, unshared, shapes⟩ :=
    restore_of_mirrors mirrors wellFormed.toSound rfl rfl
  obtain ⟨sound, unshares, target⟩ := wellFormed.toSound.reactivated soundFilled unshared shapes
  replace unshares := unshares.bindAll
  replace target := State.activeTarget_bindAll.trans target
  have afterwards := sound.bindAll
  generalize (filled.reactivated registry.state.activeTarget).bindAll = state at *
  have there : ∀ address, (state.lookup address).isSome = (registry.state.lookup address).isSome := by
    intro address
    rw [← afterwards.shapeAt_isSome, unshares.shapes, wellFormed.shapeAt_isSome]
  have result : restored = { blank with state, nextIdentity := next } := congrArg Prod.snd runs
  rw [result]
  refine ⟨congrArg Prod.fst runs, rfl, fun space => ?_, ?_, fun address tree got => ?_⟩
  · exact SortedMap.keys_eq_of_isSome fun name => there ⟨space, name⟩
  · have known := there ⟨.playlists, activeName⟩
    unfold active
    simp only [target]
    generalize state.lookup ⟨.playlists, activeName⟩ = here at known ⊢
    generalize registry.state.lookup ⟨.playlists, activeName⟩ = also at known ⊢
    cases here <;> cases also <;> first | rfl | cases known
  · obtain ⟨handle, stored, leads, stands, rfl⟩ := get_eq_ok.1 got
    have shape := unshares.shapes address
    rw [State.shapeAt_of_lookup leads, State.content_of_resolve stands] at shape
    obtain ⟨handle', stored', leads', stands', same⟩ := State.shapeAt_eq_some.1 shape
    have sameShape : stored'.unbound.shape = stored.unbound.shape := by
      rw [Tree.shape_unbound, Tree.shape_unbound, same]
    refine ⟨stored'.unbound, get_eq_ok.2 ⟨handle', stored', leads', stands', rfl⟩, sameShape,
      fun params query compiles => ?_⟩
    obtain ⟨passes, compiled⟩ := compile_eq_ok.1 compiles
    obtain ⟨valid, resolves⟩ := State.validate_unbound.1 passes
    rw [settled] at compiled
    refine compile_eq_ok.2 ⟨State.validate_unbound.2 ⟨?_, fun other member => ?_⟩, ?_⟩
    · exact Tree.validate_of_shape_eq same.symm valid
    · rw [there]
      rw [← Tree.addresses_shape, same, Tree.addresses_shape] at member
      exact resolves other member
    · refine unshares.compile_eq wellFormed afterwards ?_ sameShape (Tree.linked_unbound _ stored)
        (Tree.linked_unbound _ stored') compiled
      exact Tree.validate_of_shape_eq (Tree.shape_unbound stored).symm valid

end Registry

end Medley
