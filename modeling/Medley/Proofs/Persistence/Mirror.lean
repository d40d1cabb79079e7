import Medley.Proofs.Persistence.Calls

/-!
# What is in the store

When changes are written at once, a store in memory mirrors the stored collections (`Mirrors`): it has a
record for every name, except that of the active playlist if that is the other name of a playlist, and
the name of that playlist.  A change writes no more than the namespaces that it touches, so the mirror
is kept because it leaves what the other one says alone (`State.Redirects.leaves`).
-/

namespace Medley

/-- A store has the records of the stored collections and no others, and knows the active playlist. -/
structure Mirrors (store : MemoryStore) (state : State) : Prop where
  records : ∀ address, store.get? address = (state.recorded address).map Record.write
  active : store.active = state.activeTarget

theorem mirrors_iff {store : MemoryStore} {state : State} :
    Mirrors store state ↔ ∀ entry, store.entry entry = state.entry entry := by
  constructor
  · rintro mirrors (address | _)
    · exact mirrors.records address
    · exact mirrors.active
  · intro same
    exact ⟨fun address => same (.record address), same .active⟩

namespace Registry

open State

variable {state : State} {store : MemoryStore}

section Writing

/-- A namespace is written as its names and contents say, and the other one stays. -/
theorem writeNamespace_run (sound : state.Sound) (space : Namespace) (store : MemoryStore) :
    ∃ written, (writeNamespace state space).run store = (.ok (), written) ∧
      (∀ address, written.get? address =
        if address.space = space then (state.recorded address).map Record.write
        else store.get? address) ∧
      written.active = if space = .playlists then state.activeTarget else store.active := by
  let first := (state.recording space).foldl StoreCall.act store
  let stale := (first.records space).keys.filter fun name => name ∉ state.recordedKeys space
  have conveys : ∀ call ∈ state.calls space stale, call.Conveys state :=
    conveys_calls fun name listed => of_decide_eq_true (List.mem_filter.1 listed).2
  refine ⟨(state.calls space stale).foldl StoreCall.act store, ?_, fun address => ?_, ?_⟩
  · rw [writeNamespace_eq_runAll sound, StoreCall.runAll_run]
    intro written names runs lists
    rw [StoreCall.runAll_run] at runs
    cases runs
    cases lists
    rfl
  · refine (StoreCall.entry_foldl conveys store (.record address)).trans ?_
    simp only [record_mem_calls sound]
    by_cases here : address.space = space
    · obtain rfl := here
      simp only [true_and, if_true]
      split
      · rfl
      · next untouched =>
        -- A name that no call writes to has no record and needs none.
        obtain ⟨unlisted, fresh⟩ := not_or.1 untouched
        have needless : state.entry (.record address) = none := entry_record.trans (if_neg unlisted)
        have missing : first.entry (.record address) = none := by
          refine Option.not_isSome_iff_eq_none.1 fun there => fresh ?_
          exact List.mem_filter.2 ⟨SortedMap.mem_keys_iff.2 there, decide_eq_true unlisted⟩
        exact ((entry_recording sound unlisted store).symm.trans missing).trans needless.symm
    · rw [if_neg fun both => here both.1, if_neg here]
      rfl
  · refine (StoreCall.entry_foldl conveys store .active).trans ?_
    simp only [active_mem_calls sound]
    rfl

/-- Writing some namespaces leaves the others. -/
theorem writeNamespaces_run (sound : state.Sound) (spaces : List Namespace) (store : MemoryStore) :
    ∃ written, (spaces.forM (writeNamespace state)).run store = (.ok (), written) ∧
      (∀ address, written.get? address =
        if address.space ∈ spaces then (state.recorded address).map Record.write
        else store.get? address) ∧
      written.active = if .playlists ∈ spaces then state.activeTarget else store.active := by
  induction spaces generalizing store with
  | nil => exact ⟨store, rfl, fun _ => by simp, by simp⟩
  | cons space rest ih =>
      obtain ⟨first, runsFirst, recordsFirst, activeFirst⟩ := writeNamespace_run sound space store
      obtain ⟨written, runs, records, active⟩ := ih first
      refine ⟨written, (storing_bind runsFirst).trans runs, fun address => ?_, ?_⟩
      · rw [records, recordsFirst]
        by_cases later : address.space ∈ rest
        · rw [if_pos later, if_pos (.tail _ later)]
        · simp only [if_neg later, List.mem_cons, or_iff_left later]
      · rw [active, activeFirst]
        by_cases later : Namespace.playlists ∈ rest
        · rw [if_pos later, if_pos (.tail _ later)]
        · simp only [if_neg later, List.mem_cons, or_iff_left later, eq_comm]

end Writing

end Registry

/-! ## Namespaces that a change leaves alone -/

namespace State

variable {state after : State} {address other : Address} {handle : Handle} {shape : Shape}

theorem activeTarget_congr
    (same : ∀ name, after.lookup ⟨.playlists, name⟩ = state.lookup ⟨.playlists, name⟩) :
    after.activeTarget = state.activeTarget := by
  have names : after.names .playlists = state.names .playlists := SortedMap.ext_get? same
  simp only [activeTarget, aliases, names, same]

/-- A change of some namespaces leaves what is written of the others. -/
structure Leaves (state after : State) (spaces : List Namespace) : Prop where
  lookup : ∀ address, address.space ∉ spaces → after.lookup address = state.lookup address
  contents : ∀ {address handle}, address.space ∉ spaces → state.lookup address = some handle →
    after.content handle = state.content handle

namespace Leaves

variable {spaces : List Namespace} (leaves : state.Leaves after spaces)

include leaves

theorem activeTarget (untouched : .playlists ∉ spaces) : after.activeTarget = state.activeTarget :=
  activeTarget_congr fun name => leaves.lookup ⟨.playlists, name⟩ untouched

theorem recorded (untouched : address.space ∉ spaces) :
    after.recorded address = state.recorded address := by
  have same : after.shapeAt address = state.shapeAt address := by
    rw [shapeAt, shapeAt, leaves.lookup address untouched]
    cases found : state.lookup address with
    | none => rfl
    | some handle => exact leaves.contents untouched found
  rw [State.recorded, State.recorded, same]
  by_cases stands : address = ⟨.playlists, activeName⟩
  · subst stands
    rw [leaves.activeTarget untouched]
  · rw [if_neg fun both => stands both.1, if_neg fun both => stands both.1]

end Leaves

/-- Names that come to lead to a handle are all in one namespace, and so is what may be gone. -/
theorem Redirects.leaves (redirects : state.Redirects after handle shape)
    (leads : after.lookup address = some handle) : state.Leaves after [address.space] := by
  have elsewhere : ∀ other, other.space ∉ [address.space] →
      after.lookup other = state.lookup other ∧ after.lookup other ≠ some handle := by
    intro other different
    have far : after.lookup other ≠ some handle := fun also =>
      different (List.mem_singleton.2 (redirects.wellFormed.separate also leads))
    exact ⟨(redirects.lookup other).resolve_right far, far⟩
  refine ⟨fun other different => (elsewhere other different).1, ?_⟩
  intro other another different found
  obtain ⟨same, far⟩ := elsewhere other different
  rw [same, found] at far
  obtain ⟨content, here⟩ := Option.isSome_iff_exists.1
    (redirects.wellFormed.named (same.trans found))
  rw [here, redirects.kept (fun equal => far (congrArg some equal)) here]

theorem leaves_all (state after : State) : state.Leaves after Namespace.all where
  lookup address different := absurd (Namespace.mem_all address.space) different
  contents different := absurd (Namespace.mem_all _) different

/-- A request changes only the namespaces that it writes. -/
theorem WellFormed.leaves_apply (wellFormed : state.WellFormed) {request : Request} {next : Nat}
    (applied : (state.apply request next).1 = .ok after) : state.Leaves after request.spaces := by
  cases request with
  | create count =>
      obtain rfl := Except.ok.inj applied
      exact ⟨fun _ _ => rfl, fun _ _ => rfl⟩
  | save address tree =>
      obtain ⟨-, handle, redirects, leads⟩ := wellFormed.save applied
      exact redirects.leaves ((leads address).2 (.inl rfl))
  | remove address => exact leaves_all _ _
  | rename address name => exact leaves_all _ _
  | activate name =>
      obtain ⟨handle, shape, -, -, redirects, lookups⟩ := wellFormed.activate applied
      exact redirects.leaves ((lookups _).trans (if_pos rfl))

end State

/-! ## Runs -/

namespace Registry

/-- The state of a registry is well-formed and mirrored by its store, and changes are written at
once. -/
structure Kept (registry : Registry MemoryStore) : Prop where
  wellFormed : registry.state.WellFormed
  mirrors : Mirrors registry.store registry.state
  persisting : registry.isPersisting = true
  immediate : registry.config.persistence = .immediate

variable {registry : Registry MemoryStore}

/-- Once the namespaces are written in which a state differs from the one that is mirrored, it is
mirrored itself. -/
theorem persist_run_of_mirrors {before : State} {spaces : List Namespace}
    (sound : registry.state.Sound) (persisting : registry.isPersisting = true)
    (mirrors : Mirrors registry.store before) (leaves : before.Leaves registry.state spaces) :
    ∃ store, (persist spaces).run registry = (.ok (), { registry with store }) ∧
      Mirrors store registry.state := by
  obtain ⟨store, runs, records, active⟩ := writeNamespaces_run sound spaces registry.store
  refine ⟨store, ?_, fun address => ?_, ?_⟩
  · rw [persist_run]
    simp only [persisting, runs]
    rfl
  · rw [records]
    split
    · rfl
    · next untouched => rw [mirrors.records, leaves.recorded untouched]
  · rw [active]
    split
    · rfl
    · next untouched => rw [mirrors.active, leaves.activeTarget untouched]

/-- A change that leaves the namespaces alone that it does not write is mirrored. -/
theorem kept_change (kept : registry.Kept) {spaces : List Namespace}
    {action : State → Fresh (Except Error State)}
    (changes : ∀ state, (action registry.state registry.nextIdentity).1 = .ok state →
      state.WellFormed ∧ registry.state.Leaves state spaces) :
    ((change spaces action).run registry).2.Kept := by
  rw [change_run]
  generalize action registry.state registry.nextIdentity = changed at changes
  obtain ⟨result, next⟩ := changed
  cases result with
  | error error => exact ⟨kept.wellFormed, kept.mirrors, kept.persisting, kept.immediate⟩
  | ok state =>
      obtain ⟨wellFormed, leaves⟩ := changes state rfl
      let changed : Registry MemoryStore := { registry with state, nextIdentity := next }
      obtain ⟨store, persists, mirrors⟩ :=
        @persist_run_of_mirrors changed _ _ wellFormed.toSound kept.persisting kept.mirrors leaves
      simp only [kept.immediate, persists, changed]
      exact ⟨wellFormed, mirrors, kept.persisting, kept.immediate⟩

theorem kept_serve (kept : registry.Kept) (request : Request) : (registry.serve request).Kept := by
  unfold serve
  rcases registry.call_cases request with ⟨count, rfl⟩ | changes
  · exact ⟨kept.wellFormed, kept.mirrors, kept.persisting, kept.immediate⟩
  · rw [changes]
    exact kept_change kept fun state applied =>
      ⟨kept.wellFormed.apply applied, kept.wellFormed.leaves_apply applied⟩

theorem kept_serveAll (kept : registry.Kept) (requests : List Request) :
    (registry.serveAll requests).Kept := by
  induction requests generalizing registry with
  | nil => exact kept
  | cons request rest ih => exact ih (kept_serve kept request)

/-- An empty store mirrors an empty registry. -/
theorem mirrors_empty : Mirrors {} {} := by
  refine ⟨?_, rfl⟩
  rintro ⟨space, name⟩
  have nothing : ({} : State).recorded ⟨space, name⟩ = none := by
    rw [State.recorded]
    cases space <;> exact ite_self none
  cases space <;> exact (congrArg (Option.map Record.write) nothing).symm

theorem kept_empty (config : Config) (library : MediaLibrary)
    (immediate : config.persistence = .immediate) :
    ({ config, library, store := {} } : Registry MemoryStore).Kept where
  wellFormed := State.WellFormed.empty
  mirrors := mirrors_empty
  persisting := rfl
  immediate := immediate

end Registry

end Medley
