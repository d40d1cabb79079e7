import Medley.Proofs.Persistence.Mirroring

/-!
# Writes that are cut short

A change is written by a sequence of calls on the store, which the collections before and after it
determine (`State.writing`), and the first call that fails ends it.  No call is undone: the registry goes
back to the collections before the change, but the store keeps what the calls until then have done
(`Registry.serve_cut_short`).
-/

namespace Medley

/-- A store whose calls, when they succeed, do what they do to a memory store with the same contents. -/
structure Faithful {σ : Type} [RecordStore σ] (contents : σ → MemoryStore) : Prop where
  lists : ∀ {store space names}, RecordStore.list store space = .ok names →
    names = ((contents store).records space).keys
  acts : ∀ {store after : σ} {call : StoreCall}, call.run.run store = (.ok (), after) →
    contents after = call.act (contents store)

namespace State

/-- The calls that write a namespace once it has changed. -/
def writing (before after : State) (space : Namespace) : List StoreCall :=
  after.calls space ((before.recordedKeys space).filter fun name => name ∉ after.recordedKeys space)

theorem conveys_writing {before after : State} {space : Namespace} :
    ∀ call ∈ before.writing after space, call.Conveys after :=
  conveys_calls fun _ listed => of_decide_eq_true (List.mem_filter.1 listed).2

end State

namespace Registry

section Writing

variable {σ : Type} [RecordStore σ] {contents : σ → MemoryStore} (faithful : Faithful contents)
  {before after : State}

include faithful in
/-- Calls that all succeed do what they do to a memory store. -/
theorem contents_runAll {calls : List StoreCall} {store last : σ}
    (runs : (StoreCall.runAll calls).run store = (.ok (), last)) :
    contents last = calls.foldl StoreCall.act (contents store) := by
  induction calls generalizing store with
  | nil =>
      cases runs
      rfl
  | cons call rest ih =>
      rw [StoreCall.runAll, List.forM_cons, storing_bind_run] at runs
      split at runs
      · next first acts => rw [ih runs, List.foldl_cons, faithful.acts acts]
      · cases runs

include faithful in
/-- Where one call fails, those before it have succeeded. -/
theorem exists_failing {calls : List StoreCall} {store last : σ} {error : Error}
    (runs : (StoreCall.runAll calls).run store = (.error error, last)) :
    ∃ done failing rest between, calls = done ++ failing :: rest ∧
      contents between = done.foldl StoreCall.act (contents store) ∧
      failing.run.run between = (.error error, last) := by
  induction calls generalizing store with
  | nil => cases runs
  | cons call rest ih =>
      rw [StoreCall.runAll, List.forM_cons, storing_bind_run] at runs
      split at runs
      · next first acts =>
        obtain ⟨done, failing, left, between, rfl, reached, fails⟩ := ih runs
        refine ⟨call :: done, failing, left, between, rfl, ?_, fails⟩
        rw [reached, List.foldl_cons, faithful.acts acts]
      · next why first fails =>
        cases runs
        exact ⟨[], call, rest, store, rfl, rfl, fails⟩

/-- The names under which records are removed are those that were written and no longer are. -/
theorem stale_eq (sound : before.Sound) {space : Namespace} {store : MemoryStore}
    (mirrored : ∀ name, name ∉ after.recordedKeys space →
      store.entry (.record ⟨space, name⟩) = before.entry (.record ⟨space, name⟩)) :
    (store.records space).keys.filter (fun name => name ∉ after.recordedKeys space) =
      (before.recordedKeys space).filter fun name => name ∉ after.recordedKeys space := by
  rw [@State.recordedKeys_eq before]
  refine SortedMap.filter_keys_congr fun name absent => ?_
  have same := mirrored name (of_decide_eq_true absent)
  calc ((store.records space).get? name).isSome = true
    _ ↔ (before.entry (.record ⟨space, name⟩)).isSome := by rw [← same]; rfl
    _ ↔ name ∈ before.recordedKeys space := (State.mem_recordedKeys sound).symm
    _ ↔ _ := by rw [State.recordedKeys_eq, SortedMap.mem_keys_iff]

include faithful in
/-- A namespace is written by its calls, one after the other. -/
theorem writeNamespace_eq (soundBefore : before.Sound) (soundAfter : after.Sound)
    {space : Namespace} {store : σ} (mirrored : ∀ name,
      (contents store).entry (.record ⟨space, name⟩) = before.entry (.record ⟨space, name⟩)) :
    (writeNamespace after space).run store =
      (StoreCall.runAll (before.writing after space)).run store := by
  refine writeNamespace_eq_runAll soundAfter fun written names succeeds lists => ?_
  obtain rfl := faithful.lists lists
  refine stale_eq soundBefore fun name absent => ?_
  rw [contents_runAll faithful succeeds]
  exact (State.entry_recording soundAfter absent _).trans (mirrored name)

include faithful in
/-- Namespaces are written by their calls, one namespace after the other. -/
theorem writeNamespaces_eq (soundBefore : before.Sound) (soundAfter : after.Sound)
    {spaces : List Namespace} (once : spaces.Nodup) {store : σ}
    (mirrored : ∀ space ∈ spaces, ∀ name,
      (contents store).entry (.record ⟨space, name⟩) = before.entry (.record ⟨space, name⟩)) :
    (forM spaces (writeNamespace after)).run store =
      (StoreCall.runAll (spaces.flatMap (before.writing after))).run store := by
  induction spaces generalizing store with
  | nil => rfl
  | cons space rest ih =>
      obtain ⟨later, once⟩ := List.nodup_cons.1 once
      have first := writeNamespace_eq faithful soundBefore soundAfter (mirrored space (.head _))
      rw [List.forM_cons, List.flatMap_cons, StoreCall.runAll, List.forM_append, storing_bind_run,
        first, ← storing_bind_run]
      refine storing_bind_congr fun _ written succeeds => ih once fun other member name => ?_
      rw [contents_runAll faithful succeeds, StoreCall.entry_foldl State.conveys_writing, if_neg]
      · exact mirrored other (.tail _ member) name
      · intro touched
        obtain ⟨rfl, -⟩ := (State.record_mem_calls soundAfter).1 touched
        exact later member

end Writing

end Registry

/-! ## A store that refuses calls -/

/-- A store in memory that refuses some calls. -/
structure RefusingStore where
  memory : MemoryStore := {}
  refuses : StoreCall → Bool

namespace RefusingStore

/-- The failure of a call that is refused. -/
def refusal {α : Type} (call : StoreCall) : Except Error α :=
  let what : String := match call with
    | .set address _ => address.render
    | .list space => space.name
    | .remove address => address.render
    | .setActive _ => "active"
  fail (.unwritable what "Refusing store" "refused")

/-- Make a call unless it is refused. -/
def attempt (call : StoreCall) : Storing RefusingStore Unit := do
  let store ← get
  if store.refuses call then refusal call
  else set { store with memory := call.act store.memory }

instance : RecordStore RefusingStore where
  name _ := "Refusing store"
  isPersistent _ := true
  list store space :=
    if store.refuses (.list space) then refusal (.list space)
    else RecordStore.list store.memory space
  get store := RecordStore.get store.memory
  set address record := attempt (.set address record)
  remove address := attempt (.remove address)
  getActive store := RecordStore.getActive store.memory
  setActive name := attempt (.setActive name)

theorem attempt_run (call : StoreCall) (store : RefusingStore) :
    (attempt call).run store =
      if store.refuses call then (refusal call, store)
      else (.ok (), { store with memory := call.act store.memory }) := by
  show (if store.refuses call then (liftM (refusal call : Except Error Unit) : Storing _ Unit)
    else set { store with memory := call.act store.memory }).run store = _
  split <;> rfl

/-- A call that is not refused does what it does to a memory store. -/
theorem faithful : Faithful RefusingStore.memory where
  lists {store space names} listed := by
    change (if store.refuses (.list space) then _ else RecordStore.list store.memory space) = _ at listed
    split at listed
    · cases listed
    · exact (Except.ok.inj listed).symm
  acts {store after call} acts := by
    have attempted : ∀ call, (attempt call).run store = (.ok (), after) →
        after.memory = call.act store.memory := by
      intro call attempts
      rw [attempt_run] at attempts
      split at attempts
      · cases attempts
      · cases attempts
        rfl
    cases call with
    | list space =>
        rw [Registry.list_run] at acts
        split at acts <;> cases acts
        rfl
    | set address record => exact attempted (.set address record) acts
    | remove address => exact attempted (.remove address) acts
    | setActive name => exact attempted (.setActive name) acts

end RefusingStore

/-! ## Requests -/

namespace Registry

section Serving

variable {σ : Type} [RecordStore σ] {contents : σ → MemoryStore} (faithful : Faithful contents)
  {registry : Registry σ} {request : Request} {after : State}

theorem spaces_nodup (request : Request) : request.spaces.Nodup := by
  cases request <;> simp [Request.spaces, Namespace.all]

/-- A request that is refused although what it asks for can be done was not written. -/
theorem serve_run_refused (immediate : registry.config.persistence = .immediate)
    (applied : (registry.state.apply request registry.nextIdentity).1 = .ok after)
    (refused : ¬ registry.Accepts request) :
    (registry.serve request).state = registry.state ∧ ∃ error,
      (forM request.spaces (writeNamespace after)).run registry.store =
        (.error error, (registry.serve request).store) := by
  unfold Accepts at refused
  unfold serve
  rcases registry.call_cases request with ⟨count, rfl⟩ | changes
  · exact absurd rfl refused
  · rw [changes, change_run] at refused ⊢
    generalize registry.state.apply request registry.nextIdentity = changed at applied refused ⊢
    obtain ⟨result, next⟩ := changed
    obtain rfl : result = .ok after := applied
    simp only [immediate, persist_run, List.forM_eq_forM] at refused ⊢
    cases runs : (forM request.spaces (writeNamespace after)).run registry.store with
    | mk written last =>
        cases writes : RecordStore.isPersistent registry.store && registry.isPersisting with
        | false => simp [writes] at refused
        | true =>
            cases written with
            | ok value => simp [writes, runs] at refused
            | error error => exact ⟨by simp [withState], error, by simp [withState]⟩

/-- What can be done but is refused because a call on the store fails leaves the collections as they
were, and has written what the calls before that one write and nothing else. -/
theorem serve_cut_short (faithful : Faithful contents) (wellFormed : registry.state.WellFormed)
    (immediate : registry.config.persistence = .immediate)
    (mirrors : Mirrors (contents registry.store) registry.state)
    (applied : (registry.state.apply request registry.nextIdentity).1 = .ok after)
    (refused : ¬ registry.Accepts request) :
    (registry.serve request).state = registry.state ∧
      ∃ done failing rest between error,
        request.spaces.flatMap (registry.state.writing after) = done ++ failing :: rest ∧
        (∀ entry, (contents between).entry entry =
          if entry ∈ done.filterMap StoreCall.target? then after.entry entry
          else registry.state.entry entry) ∧
        failing.run.run between = (.error error, (registry.serve request).store) := by
  obtain ⟨restored, error, runs⟩ := serve_run_refused immediate applied refused
  rw [mirrors_iff] at mirrors
  have afterwards := wellFormed.apply applied
  rw [writeNamespaces_eq faithful wellFormed.toSound afterwards.toSound (spaces_nodup request)
    fun space _ name => mirrors (.record ⟨space, name⟩)] at runs
  obtain ⟨done, failing, rest, between, calls, reached, fails⟩ := exists_failing faithful runs
  refine ⟨restored, done, failing, rest, between, error, calls, fun entry => ?_, fails⟩
  have conveys : ∀ call ∈ done, call.Conveys after := by
    intro call member
    have inside : call ∈ request.spaces.flatMap (registry.state.writing after) :=
      calls ▸ List.mem_append_left _ member
    obtain ⟨space, -, inside⟩ := List.mem_flatMap.1 inside
    exact State.conveys_writing call inside
  rw [reached, StoreCall.entry_foldl conveys, mirrors]

end Serving

section Refusing

/-- The record of a playlist stays in the store although saving it failed. -/
theorem save_refused_keeps_record :
    let store : RefusingStore := { refuses := fun call => call == .setActive none }
    let registry : Registry RefusingStore := { config := { persistence := .immediate }, store }
    let request : Request :=
      .save ⟨.playlists, "Picks"⟩ (.leaf ⟨0, none⟩ { kind := .list .list, ids := [1] })
    Mirrors registry.store.memory registry.state ∧ ¬ registry.Accepts request ∧
      (registry.serve request).list .playlists = [] ∧
      RecordStore.list registry.store .playlists = .ok [] ∧
      RecordStore.list (registry.serve request).store .playlists = .ok ["Picks"] := by
  refine ⟨(kept_empty { persistence := .immediate } .absent rfl).mirrors, ?_, ?_, ?_, ?_⟩
  · unfold Accepts
    decide +kernel
  all_goals decide +kernel

/-- Saving a playlist is cut short where noting which one is active is refused. -/
theorem serve_cut_short_refusing :
    let store : RefusingStore := { refuses := fun call => call == .setActive none }
    let registry : Registry RefusingStore := { config := { persistence := .immediate }, store }
    let request : Request :=
      .save ⟨.playlists, "Picks"⟩ (.leaf ⟨0, none⟩ { kind := .list .list, ids := [1] })
    ¬ registry.Accepts request ∧ (registry.serve request).state = registry.state ∧
      ∃ after done failing rest, (registry.state.apply request registry.nextIdentity).1 = .ok after ∧
        request.spaces.flatMap (registry.state.writing after) = done ++ failing :: rest := by
  intro store registry request
  have mirrors : Mirrors registry.store.memory registry.state :=
    (kept_empty { persistence := .immediate } .absent rfl).mirrors
  have refused : ¬ registry.Accepts request := by
    unfold Accepts
    subst request registry store
    decide +kernel
  have applies : (registry.state.apply request registry.nextIdentity).1.isOk := by
    subst request registry store
    decide +kernel
  cases applied : (registry.state.apply request registry.nextIdentity).1 with
  | error error =>
      rw [applied] at applies
      cases applies
  | ok after =>
      obtain ⟨same, done, failing, rest, -, -, calls, -⟩ := serve_cut_short RefusingStore.faithful
        State.WellFormed.empty rfl mirrors applied refused
      exact ⟨refused, same, after, done, failing, rest, rfl, calls⟩

end Refusing

end Registry

end Medley
