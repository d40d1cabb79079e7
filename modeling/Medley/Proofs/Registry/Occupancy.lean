import Medley.Proofs.Persistence.Restored

/-!
# Slots without names

A collection is dropped with its last name: whatever drops or repoints a name releases the slot that
the name pointed to, and the free numbers are those of the empty slots.  Only a restore may leave a
collection behind that no name leads to: one that is stored as the active playlist itself, where the
store also tells that another playlist is the active one (`Registry.accounted_performAll`).
-/

namespace Medley

namespace State

/-- Whether a handle has a collection that no name leads to. -/
def Stray (state : State) (handle : Handle) : Prop :=
  (state.resolve handle).isSome ∧ ∀ address, state.lookup address ≠ some handle

/-- Whether every collection has a name. -/
def Accounted (state : State) : Prop := ∀ handle, ¬ state.Stray handle

variable {state after : State} {address : Address} {handle another : Handle} {node tree : Node}

section Names

theorem not_stray_of_lookup (leads : state.lookup address = some handle) : ¬ state.Stray handle :=
  fun stray => stray.2 address leads

theorem isNamed_eq_false :
    state.isNamed handle = false ↔ ∀ address, state.lookup address ≠ some handle := by
  rw [← Bool.not_eq_true, isNamed_eq_true, not_exists]

theorem stray_congr (occupied : (after.resolve handle).isSome = (state.resolve handle).isSome)
    (lookup : after.lookup = state.lookup) : after.Stray handle ↔ state.Stray handle := by
  rw [Stray, Stray, occupied, lookup]

theorem stray_mapRoots (image : Node → Node) :
    (state.mapRoots image).Stray handle ↔ state.Stray handle :=
  stray_congr (by rw [resolve_mapRoots, Option.isSome_map]) (funext fun _ => lookup_mapRoots image)

theorem stray_replace (there : (state.resolve handle).isSome) :
    (state.replace handle node).Stray another ↔ state.Stray another := by
  refine stray_congr ?_ (funext fun _ => lookup_replace)
  rw [resolve_replace there]
  split
  · next same => rw [same, there]; rfl
  · rfl

theorem stray_inlineReferences (target : Node) (next : Nat) :
    (state.inlineReferences address target next).1.Stray handle ↔ state.Stray handle := by
  refine stray_congr ?_ (lookup_inlineReferences state address target next)
  rw [← content_isSome, content_inlineReferences, Option.isSome_map, content_isSome]

/-- A release empties the slot if it was left without a name. -/
theorem stray_release :
    (state.release handle).Stray another ↔ state.Stray another ∧ another ≠ handle := by
  simp only [Stray, lookup_release, resolve_release]
  constructor
  · rintro ⟨occupied, unnamed⟩
    split at occupied
    · cases occupied
    · next kept =>
      refine ⟨⟨occupied, unnamed⟩, fun same => kept ⟨same, isNamed_eq_false.2 (same ▸ unnamed)⟩⟩
  · rintro ⟨⟨occupied, unnamed⟩, different⟩
    rw [if_neg fun both => different both.1]
    exact ⟨occupied, unnamed⟩

/-- A new collection has no name at first. -/
theorem Tidy.stray_allocate (tidy : state.Tidy) (unnamed : ∀ address, state.lookup address ≠
    some (state.allocate node).1) :
    (state.allocate node).2.Stray handle ↔ handle = (state.allocate node).1 ∨ state.Stray handle := by
  simp only [Stray, lookup_allocate, tidy.resolve_allocate]
  by_cases new : handle = (state.allocate node).1
  · simp only [new, if_true, Option.isSome_some, true_and, true_or, iff_true]
    exact unnamed
  · rw [if_neg new, or_iff_right new]

/-- A name that is new keeps its collection. -/
theorem stray_point_of_free (free : state.lookup address = none) :
    (state.point address handle).Stray another ↔ state.Stray another ∧ another ≠ handle := by
  simp only [Stray, resolve_point, lookup_point]
  constructor
  · rintro ⟨occupied, unnamed⟩
    refine ⟨⟨occupied, fun other leads => ?_⟩, fun same => unnamed address (by rw [if_pos rfl, same])⟩
    have unled := unnamed other
    split at unled
    · next same =>
      rw [same, free] at leads
      cases leads
    · exact unled leads
  · rintro ⟨⟨occupied, unnamed⟩, different⟩
    refine ⟨occupied, fun other leads => ?_⟩
    split at leads
    · exact different (Option.some.inj leads).symm
    · exact unnamed other leads

/-- A name that is pointed elsewhere drops the collection that it alone pointed to. -/
theorem stray_repoint :
    (state.repoint address handle).Stray another ↔ state.Stray another ∧ another ≠ handle := by
  simp only [Stray, lookup_repoint, resolve_repoint]
  constructor
  · rintro ⟨occupied, unnamed⟩
    split at occupied
    · cases occupied
    · next kept =>
      refine ⟨⟨occupied, fun other leads => ?_⟩,
        fun same => unnamed address (by rw [if_pos rfl, same])⟩
      have unled := unnamed other
      split at unled
      · next same =>
        have dropped : ∀ other, (state.point address handle).lookup other ≠ some another :=
          fun other => lookup_point ▸ unnamed other
        exact kept ⟨same ▸ leads, isNamed_eq_false.2 dropped⟩
      · exact unled leads
  · rintro ⟨⟨occupied, unnamed⟩, different⟩
    rw [if_neg fun both => unnamed address both.1]
    refine ⟨occupied, fun other leads => ?_⟩
    split at leads
    · exact different (Option.some.inj leads).symm
    · exact unnamed other leads

/-- A name that is dropped leaves its collection behind, unless it has another one. -/
theorem stray_unname (different : state.lookup address ≠ some another) :
    (state.unname address).Stray another ↔ state.Stray another := by
  simp only [Stray, resolve_unname, lookup_unname]
  refine and_congr_right fun _ => forall_congr' fun other => ?_
  by_cases same : other = address
  · simp [same, different]
  · rw [if_neg same]

end Names

section Changes

theorem Sound.stray_insert (sound : state.Sound) :
    (state.insert address node).Stray handle ↔ state.Stray handle := by
  have empty := sound.tidy.resolve_allocate_self node
  rw [State.insert, stray_repoint, sound.tidy.stray_allocate (sound.lookup_ne_allocate node)]
  constructor
  · rintro ⟨new | stray, different⟩
    · exact absurd new different
    · exact stray
  · intro stray
    refine ⟨.inr stray, fun new => ?_⟩
    rw [Stray, new, empty] at stray
    cases stray.1

theorem Sound.stray_overwrite (sound : state.Sound) {old : Handle}
    (found : state.lookup address = some old) :
    (state.overwrite address.space old tree).Stray handle ↔ state.Stray handle := by
  obtain ⟨new, empty, lookups, resolves⟩ := sound.resolve_overwrite found tree
  simp only [Stray, lookups, resolves]
  by_cases isOld : handle = old
  · subst isOld
    simp only [if_true, Option.isSome_none, Bool.false_eq_true, false_and, false_iff, not_and]
    exact fun _ unnamed => unnamed address found
  · by_cases isNew : handle = new
    · subst isNew
      rw [empty]
      simp only [Option.isSome_none, Bool.false_eq_true, false_and, iff_false, not_and]
      exact fun _ unnamed => unnamed address (by rw [if_pos found])
    · rw [if_neg isOld, if_neg isNew, Option.isSome_map]
      refine and_congr_right fun _ => forall_congr' fun other => ?_
      split
      · next leads =>
        rw [leads]
        simp [Ne.symm isOld, Ne.symm isNew]
      · rfl

theorem Sound.stray_save (sound : state.Sound) (saved : state.save address tree = .ok after) :
    after.Stray handle ↔ state.Stray handle := by
  obtain ⟨-, ⟨shared, shares, rfl⟩ | ⟨-, ⟨old, found, rfl⟩ | ⟨-, rfl⟩⟩⟩ := save_cases saved
  · obtain ⟨name, named⟩ := exists_of_sharing shares
    rw [State.bindAll, stray_mapRoots, stray_repoint, stray_replace (sound.occupied named)]
    exact and_iff_left_of_imp fun stray same => not_stray_of_lookup named (same ▸ stray)
  · exact sound.stray_overwrite found
  · exact sound.stray_insert

theorem stray_remove {next : Nat} (removed : (state.remove address next).1 = .ok after) :
    after.Stray handle ↔ state.Stray handle := by
  obtain ⟨dropped, target, found, -, rfl, -⟩ := remove_cases removed
  rw [State.bindAll, stray_mapRoots, stray_release, stray_inlineReferences]
  by_cases same : handle = dropped
  · exact iff_of_false (fun both => both.2 same) (same ▸ not_stray_of_lookup found)
  · rw [stray_unname fun leads => same (Option.some.inj (leads.symm.trans found))]
    exact and_iff_left same

theorem stray_rename {name : String} (renamed : state.rename address name = .ok after) :
    after.Stray handle ↔ state.Stray handle := by
  obtain ⟨moved, found, free, rfl⟩ := rename_cases renamed
  have free : (state.unname address).lookup { address with name } = none := by
    rw [lookup_unname, free, ite_self]
  rw [State.bindAll, stray_mapRoots, renameReferences, stray_mapRoots, stray_point_of_free free]
  by_cases same : handle = moved
  · exact iff_of_false (fun both => both.2 same) (same ▸ not_stray_of_lookup found)
  · rw [stray_unname fun leads => same (Option.some.inj (leads.symm.trans found))]
    exact and_iff_left same

theorem stray_activate {name : String} (activated : state.activate name = .ok after) :
    after.Stray handle ↔ state.Stray handle := by
  obtain ⟨active, found, rfl⟩ := activate_cases activated
  rw [State.bindAll, stray_mapRoots, stray_repoint]
  exact and_iff_left_of_imp fun stray same => not_stray_of_lookup found (same ▸ stray)

end Changes

theorem Sound.stray_apply (sound : state.Sound) {request : Request} {next : Nat}
    (applied : (state.apply request next).1 = .ok after) :
    after.Stray handle ↔ state.Stray handle := by
  cases request with
  | create count => exact Except.ok.inj applied ▸ Iff.rfl
  | save address tree => exact sound.stray_save applied
  | remove address => exact stray_remove applied
  | rename address name => exact stray_rename applied
  | activate name => exact stray_activate applied

section Taking

theorem stray_releaseAll (handles : List Handle) (state : State) :
    (handles.foldl release state).Stray handle ↔ state.Stray handle ∧ handle ∉ handles := by
  induction handles generalizing state with
  | nil => simp
  | cons first rest ih =>
      rw [List.foldl_cons, ih, stray_release, List.mem_cons, not_or, and_assoc]

/-- The collections that only a namespace names go with its names. -/
theorem stray_clear (space : Namespace) : (state.clear space).Stray handle ↔ state.Stray handle := by
  have named : handle ∈ (state.names space).values ↔
      ∃ name, state.lookup ⟨space, name⟩ = some handle := by
    simp only [SortedMap.values, List.mem_map, Prod.exists, exists_eq_right, SortedMap.mem_entries_iff]
    rfl
  rw [State.clear, stray_releaseAll, named, not_exists, Stray, resolve_congr (slots_setNames ..), and_assoc]
  refine and_congr_right fun _ => ?_
  constructor
  · rintro ⟨elsewhere, unnamed⟩ other leads
    by_cases here : other.space = space
    · subst here
      exact unnamed other.name leads
    · exact elsewhere other (by rwa [lookup_setNames, if_neg here])
  · intro unnamed
    refine ⟨fun other leads => ?_, fun name => unnamed ⟨space, name⟩⟩
    rw [lookup_setNames] at leads
    split at leads
    · cases leads
    · exact unnamed other leads

/-- A name that is pointed to the collection of another one leaves its own behind. -/
theorem Apart.stray_point {space : Namespace} (apart : state.Apart space) (sound : state.Sound)
    {name source : String} (leads : state.lookup ⟨space, source⟩ = some handle) :
    (state.point ⟨space, name⟩ handle).Stray another ↔ state.Stray another ∨
      (source ≠ name ∧ state.lookup ⟨space, name⟩ = some another) := by
  simp only [Stray, resolve_point, lookup_point]
  constructor
  · rintro ⟨occupied, unnamed⟩
    by_cases own : state.lookup ⟨space, name⟩ = some another
    · refine .inr ⟨fun same => unnamed ⟨space, name⟩ ?_, own⟩
      rw [if_pos rfl, ← leads, same, own]
    · refine .inl ⟨occupied, fun other names => ?_⟩
      have unled := unnamed other
      split at unled
      · next here => exact own (here ▸ names)
      · exact unled names
  · rintro (⟨occupied, unnamed⟩ | ⟨different, own⟩)
    · refine ⟨occupied, fun other names => ?_⟩
      split at names
      · exact unnamed _ (leads.trans names)
      · exact unnamed other names
    · refine ⟨sound.occupied own, fun other names => ?_⟩
      split at names
      · exact different (apart leads (own.trans names.symm))
      · next elsewhere =>
        have home : other.space = space := sound.separate names own
        subst home
        exact elsewhere (congrArg (Address.mk other.space) (apart names own))

end Taking

end State

namespace Registry

section Filling

variable {state : State} {handle : Handle}

/-- What is taken over has names, and nothing loses its last one. -/
theorem insertAll_filled (sound : state.Sound) (space : Namespace)
    {trees : List (String × Shape)} (valid : ∀ entry ∈ trees, entry.2.validate = .ok ()) (next : Nat) :
    let filled := (insertAll space trees state next).1
    (∀ handle, filled.Stray handle ↔ state.Stray handle) ∧
      ∀ name, (filled.lookup ⟨space, name⟩).isSome ↔
        (state.lookup ⟨space, name⟩).isSome ∨ name ∈ trees.map Prod.fst := by
  induction trees generalizing state next with
  | nil => exact ⟨fun _ => Iff.rfl, fun name => by simp [insertAll]; rfl⟩
  | cons entry rest ih =>
      obtain ⟨name, shape⟩ := entry
      rw [insertAll_cons]
      have rules := Tree.validate_of_shape_eq (Tree.shape_number shape next).symm (valid _ (.head _))
      obtain ⟨strays, names⟩ := ih (sound.insert ⟨space, name⟩ rules)
        (fun entry member => valid entry (.tail _ member)) (shape.number next).2
      refine ⟨fun handle => (strays handle).trans sound.stray_insert, fun other => ?_⟩
      rw [names, State.lookup_insert, List.map_cons, List.mem_cons]
      by_cases same : other = name
      · simp [same]
      · have apart : (⟨space, other⟩ : Address) ≠ ⟨space, name⟩ := by simp [same]
        rw [if_neg apart, or_iff_right same]

theorem stray_activateDefault (created : Bool) (next : Nat) :
    (activateDefault created state next).1.2.Stray handle ↔ state.Stray handle := by
  rw [activateDefault]
  cases active : state.lookup ⟨.playlists, activeName⟩ with
  | some _ => rfl
  | none =>
      cases leads : state.lookup ⟨.playlists, defaultPlaylist⟩ with
      | none => rfl
      | some shown =>
          refine (State.stray_point_of_free active).trans (and_iff_left_of_imp fun stray same => ?_)
          exact State.not_stray_of_lookup leads (same ▸ stray)

theorem stray_createDefault (sound : state.Sound) (next : Nat) :
    (createDefault state next).1.2.Stray handle ↔ state.Stray handle := by
  unfold createDefault
  by_cases there : (state.lookup ⟨.playlists, defaultPlaylist⟩).isSome
  · rw [if_pos there]
    exact stray_activateDefault false next
  · rw [if_neg there]
    exact (stray_activateDefault true (next + 1)).trans sound.stray_insert

end Filling

section Restoring

variable {σ : Type} [RecordStore σ] {registry : Registry σ} {handle : Handle}

/-- Whether a restore lets go of a collection: the store has one that is the active playlist itself and
tells that another playlist is the active one. -/
def Displaces (registry : Registry σ) : Prop :=
  ∃ trees name, readNamespace registry.store .playlists = .ok trees ∧
    RecordStore.getActive registry.store = .ok (some name) ∧ name ≠ activeName ∧
    name ∈ trees.map Prod.fst ∧ activeName ∈ trees.map Prod.fst

/-- What a registry has written itself, a restore takes over without letting go of anything. -/
theorem Kept.not_displaces {registry : Registry MemoryStore} (kept : registry.Kept) :
    ¬ registry.Displaces := by
  rintro ⟨trees, name, reads, noted, -, -, held⟩
  obtain ⟨_, also, -, listed, -⟩ :=
    readNamespace_of_records kept.wellFormed.toSound fun name => kept.mirrors.records ⟨.playlists, name⟩
  obtain rfl := Except.ok.inj (reads.symm.trans also)
  have active : registry.state.activeTarget = some name :=
    kept.mirrors.active.symm.trans (Except.ok.inj noted)
  have recorded := (listed activeName).1 held
  rw [State.recorded, if_pos ⟨rfl, by rw [active]; rfl⟩] at recorded
  cases recorded

theorem stray_restoreNamespace (sound : registry.state.Sound) (space : Namespace) :
    ((restoreNamespace space).run registry).2.state.Stray handle ↔ registry.state.Stray handle := by
  rw [restoreNamespace_run]
  split
  · next trees reads =>
    have filled := insertAll_filled (sound.clear space) space (validate_of_readNamespace reads)
      registry.nextIdentity
    exact (filled.1 handle).trans (State.stray_clear space)
  · rfl

theorem stray_settle (sound : registry.state.Sound) :
    ((settle : Call σ Unit).run registry).2.state.Stray handle ↔ registry.state.Stray handle := by
  rw [state_settle, State.bindAll, State.stray_mapRoots]
  split
  · exact stray_createDefault sound registry.nextIdentity
  · rfl

/-- A namespace that is taken over has the names in the store, each for a collection of its own. -/
theorem names_restoreNamespace (sound : registry.state.Sound) {space : Namespace}
    {trees : List (String × Shape)} (reads : readNamespace registry.store space = .ok trees) :
    let taken := ((restoreNamespace space).run registry).2.state
    taken.Apart space ∧
      ∀ name, (taken.lookup ⟨space, name⟩).isSome ↔ name ∈ trees.map Prod.fst := by
  rw [restoreNamespace_run, reads]
  have valid := validate_of_readNamespace reads
  obtain ⟨-, names⟩ := insertAll_filled (sound.clear space) space valid registry.nextIdentity
  refine ⟨apart_insertAll (sound.clear space) (State.apart_clear space) valid _,
    fun name => (names name).trans (or_iff_right ?_)⟩
  rw [State.lookup_clear, if_pos rfl]
  exact Bool.false_ne_true

/-- Once the playlists are taken over, noting which one is active lets go of the one stored as such. -/
theorem accounted_restoreActive (sound : registry.state.Sound)
    (apart : registry.state.Apart .playlists) :
    (restoreActive.run registry).2.state.Accounted ↔ registry.state.Accounted ∧
      ¬ ∃ name, RecordStore.getActive registry.store = .ok (some name) ∧ name ≠ activeName ∧
        (registry.state.lookup ⟨.playlists, name⟩).isSome ∧
        (registry.state.lookup ⟨.playlists, activeName⟩).isSome := by
  rw [restoreActive, modify_run]
  split
  · next error fails => simp [fails]
  · next fails => simp [fails]
  · next name noted =>
    split
    · next handle leads =>
      have strays : ∀ left, (registry.state.point ⟨.playlists, activeName⟩ handle).Stray left ↔
          registry.state.Stray left ∨ (name ≠ activeName ∧
            registry.state.lookup ⟨.playlists, activeName⟩ = some left) :=
        fun left => apart.stray_point sound leads
      constructor
      · refine fun accounted => ⟨fun left stray => accounted left ((strays left).2 (.inl stray)), ?_⟩
        rintro ⟨other, also, different, -, held⟩
        obtain rfl : name = other := Option.some.inj (Except.ok.inj (noted.symm.trans also))
        obtain ⟨left, own⟩ := Option.isSome_iff_exists.1 held
        exact accounted left ((strays left).2 (.inr ⟨different, own⟩))
      · rintro ⟨accounted, keeps⟩ left stray
        rcases (strays left).1 stray with stray | ⟨different, own⟩
        · exact accounted left stray
        · exact keeps ⟨name, noted, different, by rw [leads]; rfl, by rw [own]; rfl⟩
    · next absent =>
      refine (and_iff_left ?_).symm
      rintro ⟨other, also, -, there, -⟩
      cases noted.symm.trans also
      rw [absent] at there
      cases there

/-- A restore keeps account of slots unless it lets go of a collection. -/
theorem accounted_restore (sound : registry.state.Sound) :
    ((restore : Call σ Unit).run registry).2.state.Accounted ↔
      registry.state.Accounted ∧ ¬ registry.Displaces := by
  have soundFirst := registry.sound_restoreNamespace sound .collections
  have soundSecond := sound_restoreNamespace _ soundFirst .playlists
  have storeFirst := registry.store_restoreNamespace .collections
  have storeSecond := (store_restoreNamespace _ .playlists).trans storeFirst
  have strays : (((restoreNamespace .playlists).run
      ((restoreNamespace .collections).run registry).2).2).state.Accounted ↔
        registry.state.Accounted :=
    forall_congr' fun handle => not_congr ((stray_restoreNamespace soundFirst .playlists).trans
      (stray_restoreNamespace sound .collections))
  rw [restore_run]
  split
  · next trees reads =>
    obtain ⟨apart, names⟩ := names_restoreNamespace soundFirst (storeFirst ▸ reads)
    have soundThird := sound_restoreActive _ soundSecond
    refine (forall_congr' fun handle => not_congr (stray_settle soundThird)).trans ?_
    refine (accounted_restoreActive soundSecond apart).trans (and_congr strays (not_congr ?_))
    simp only [names, storeSecond, Displaces, reads, Except.ok.injEq, exists_and_left,
      exists_eq_left']
  · next error fails =>
    refine (forall_congr' fun handle => not_congr (stray_settle soundSecond)).trans ?_
    refine strays.trans (and_iff_left ?_).symm
    rintro ⟨trees, -, reads, -⟩
    cases fails.symm.trans reads

/-- A playlist that is stored as the active one beside a note of another loses its name. -/
example :
    let picks : Shape := .leaf () { kind := .list .list }
    let record := Record.write picks
    let store : MemoryStore :=
      { playlists := .ofList [("Picks", record), (activeName, record)], active := some "Picks" }
    ¬ (restore.run ({ store } : Registry MemoryStore)).2.state.Accounted := by
  intro picks record store accounted
  have read : ∀ address, Record.readAt address record = .ok picks := readAt_write rfl
  have displaces : ({ store } : Registry MemoryStore).Displaces := by
    refine ⟨[("Picks", picks), (activeName, picks)], "Picks", ?_, rfl, by decide, by simp, by simp⟩
    have names : RecordStore.list store .playlists = .ok ["Picks", activeName] := by decide
    have first : RecordStore.get store ⟨.playlists, "Picks"⟩ = .ok record := by decide
    have second : RecordStore.get store ⟨.playlists, activeName⟩ = .ok record := by decide
    have entry : ∀ name, RecordStore.get store ⟨.playlists, name⟩ = .ok record →
        (do
          let record ← RecordStore.get store ⟨.playlists, name⟩
          return (name, ← Record.readAt ⟨.playlists, name⟩ record) : Except Error _) =
            .ok (name, picks) :=
      fun name found => Except.bind_eq_ok.2 ⟨record, found, Except.bind_eq_ok.2 ⟨picks, read _, rfl⟩⟩
    exact Except.bind_eq_ok.2
      ⟨_, names, List.mapM_eq_ok.2 (.cons (entry _ first) (.cons (entry _ second) .nil))⟩
  exact ((accounted_restore State.WellFormed.empty.toSound).1 accounted).2 displaces

end Restoring

section Operations

variable {σ : Type} [RecordStore σ] {registry : Registry σ}

/-- Whether no restore among operations lets go of a collection. -/
def Spares (registry : Registry σ) : List (Operation σ) → Prop
  | [] => True
  | operation :: rest =>
      (operation = .restore → ¬ registry.Displaces) ∧ (registry.perform operation).Spares rest

theorem accounted_serve (sound : registry.state.Sound) (request : Request) :
    (registry.serve request).state.Accounted ↔ registry.state.Accounted := by
  rcases registry.serve_cases request with ⟨state, applied, -, same⟩ | ⟨-, same⟩
  · rw [same]
    exact forall_congr' fun handle => not_congr (sound.stray_apply applied)
  · rw [same]

theorem accounted_perform (sound : registry.state.Sound) (operation : Operation σ) :
    (registry.perform operation).state.Accounted ↔
      registry.state.Accounted ∧ (operation = .restore → ¬ registry.Displaces) := by
  have kept : ∀ {after : State}, (∀ handle, after.Stray handle ↔ registry.state.Stray handle) →
      operation ≠ .restore → (after.Accounted ↔
        registry.state.Accounted ∧ (operation = .restore → ¬ registry.Displaces)) :=
    fun strays other => (forall_congr' fun handle => not_congr (strays handle)).trans
      (and_iff_left fun isRestore => absurd isRestore other).symm
  cases operation with
  | serve request =>
      exact (accounted_serve sound request).trans (and_iff_left fun isRestore => nomatch isRestore).symm
  | bindAll => exact kept (fun _ => State.stray_mapRoots _) nofun
  | unbindAll => exact kept (fun _ => State.stray_mapRoots _) nofun
  | restore => exact (accounted_restore sound).trans (by simp)
  | sync => exact kept (fun handle => iff_of_eq (congrArg (·.Stray handle) registry.state_sync)) nofun
  | edit store => exact kept (fun _ => Iff.rfl) nofun

/-- Through a run over any store, the free numbers are those of the empty slots, each once, and every
collection has a name as long as no restore lets go of one. -/
theorem accounted_performAll (wellFormed : registry.state.WellFormed)
    (operations : List (Operation σ)) :
    (registry.performAll operations).state.Tidy ∧
      ((registry.performAll operations).state.Accounted ↔
        registry.state.Accounted ∧ registry.Spares operations) := by
  refine ⟨(wellFormed_performAll wellFormed operations).tidy, ?_⟩
  induction operations generalizing registry with
  | nil => exact (and_iff_left trivial).symm
  | cons operation rest ih =>
      refine (ih (wellFormed_perform wellFormed operation)).trans ?_
      rw [accounted_perform wellFormed.toSound, and_assoc]
      rfl

end Operations

end Registry

end Medley
