import Medley.Proofs.Registry.Runs
import Medley.Proofs.Record.RoundTrip
import Medley.Proofs.Store.Memory

/-!
# Calls on a store

Collections are written by calls on a store.  The collections say which calls these are, except that the
store is asked first which records are to be removed (`State.calls`, `Registry.writeNamespace_eq_runAll`).
No call writes anything but what the stored collections say (`StoreCall.Conveys`), so what calls leave in
a memory store is known from what they write to (`StoreCall.entry_foldl`).
-/

namespace Medley

/-! ## What a store keeps -/

namespace State

/-- What is written under an address. -/
def recorded (state : State) (address : Address) : Option Shape :=
  if address = ⟨.playlists, activeName⟩ ∧ state.activeTarget.isSome then none
  else state.shapeAt address

end State

/-- What a store keeps. -/
inductive Entry where
  | record (address : Address)
  | active
  deriving DecidableEq

/-- What a memory store keeps. -/
def MemoryStore.entry (store : MemoryStore) : Entry → Option String
  | .record address => store.get? address
  | .active => store.active

/-- What is written of the stored collections. -/
def State.entry (state : State) : Entry → Option String
  | .record address => (state.recorded address).map Record.write
  | .active => state.activeTarget

/-- A call on a store while something is written. -/
inductive StoreCall where
  | set (address : Address) (record : String)
  | list (space : Namespace)
  | remove (address : Address)
  | setActive (name : Option String)
  deriving DecidableEq

namespace StoreCall

section Calling

variable {σ : Type} [RecordStore σ]

/-- Make a call. -/
def run : StoreCall → Storing σ Unit
  | .set address record => RecordStore.set address record
  | .list space => do
      let _ ← (RecordStore.list (← get) space : Except Error _)
  | .remove address => RecordStore.remove address
  | .setActive name => RecordStore.setActive name

/-- Make calls until one fails. -/
def runAll (calls : List StoreCall) : Storing σ Unit := forM calls run

end Calling

/-- What a call does to a memory store. -/
def act (store : MemoryStore) (call : StoreCall) : MemoryStore := (call.run.run store).2

/-- What a call writes to, if anything. -/
def target? : StoreCall → Option Entry
  | .set address _ => some (.record address)
  | .list _ => none
  | .remove address => some (.record address)
  | .setActive _ => some .active

/-- Whether a call writes nothing but what the stored collections say. -/
def Conveys (state : State) : StoreCall → Prop
  | .set address record => state.entry (.record address) = some record
  | .list _ => True
  | .remove address => state.entry (.record address) = none
  | .setActive name => state.entry .active = name

variable {state : State} {call : StoreCall} {calls : List StoreCall}

theorem Conveys.entry_act (conveys : call.Conveys state) (store : MemoryStore) (entry : Entry) :
    (call.act store).entry entry =
      if call.target? = some entry then state.entry entry else store.entry entry := by
  cases call with
  | set address record =>
      cases entry with
      | record other =>
          show (store.insert address record).get? other = _
          rw [MemoryStore.get?_insert]
          by_cases same : other = address
          · subst same
            simp [target?, conveys.symm]
          · simp [target?, same, Ne.symm same, MemoryStore.entry]
      | active => exact store.active_insert ..
  | list space => rfl
  | remove address =>
      cases entry with
      | record other =>
          show (store.erase address).get? other = _
          rw [MemoryStore.get?_erase]
          by_cases same : other = address
          · subst same
            simp [target?, conveys.symm]
          · simp [target?, same, Ne.symm same, MemoryStore.entry]
      | active => exact store.active_erase ..
  | setActive name =>
      cases entry with
      | record other => rfl
      | active => exact conveys.symm

/-- Calls leave what they do not write to. -/
theorem entry_foldl (conveys : ∀ call ∈ calls, call.Conveys state) (store : MemoryStore)
    (entry : Entry) :
    (calls.foldl act store).entry entry =
      if entry ∈ calls.filterMap target? then state.entry entry else store.entry entry := by
  induction calls generalizing store with
  | nil => simp
  | cons call rest ih =>
      have first := (conveys call (.head _)).entry_act store entry
      rw [List.foldl_cons, ih (fun call member => conveys call (.tail _ member)), first]
      cases writes : call.target? with
      | none => simp [writes]
      | some target =>
          rw [List.filterMap_cons_some writes]
          by_cases later : entry ∈ rest.filterMap target?
          · rw [if_pos later, if_pos (List.mem_cons_of_mem _ later)]
          · simp only [List.mem_cons, later, or_false, if_false, Option.some.injEq, eq_comm]

/-- No call on a memory store fails. -/
theorem runAll_run (calls : List StoreCall) (store : MemoryStore) :
    (runAll calls).run store = (.ok (), calls.foldl act store) := by
  induction calls generalizing store with
  | nil => rfl
  | cons call rest ih =>
      have first : (call.run : Storing MemoryStore Unit).run store = (.ok (), call.act store) := by
        cases call <;> rfl
      rw [runAll, List.forM_cons, Registry.storing_bind first]
      exact ih _

end StoreCall

namespace Registry

section Listing

variable {σ β : Type} [RecordStore σ]

/-- What is in the store is read without a change of it. -/
theorem list_bind_run (space : Namespace) (next : List String → Storing σ β) (store : σ) :
    (do
      let listed ← (RecordStore.list (← MonadState.get) space : Except Error _)
      next listed : Storing σ β).run store =
      match RecordStore.list store space with
      | .ok names => (next names).run store
      | .error error => (.error error, store) := by
  rw [storing_bind_run, show (MonadState.get : Storing σ σ).run store = (.ok store, store) from rfl]
  simp only [storing_bind_run]
  cases RecordStore.list store space <;> rfl

theorem list_run (space : Namespace) (store : σ) :
    ((StoreCall.list space).run : Storing σ Unit).run store =
      match RecordStore.list store space with
      | .ok _ => (.ok (), store)
      | .error error => (.error error, store) :=
  list_bind_run space (fun _ => pure ()) store

end Listing

variable {state : State}

theorem mem_recordedNames {space : Namespace} {name : String} {handle : Handle} :
    (name, handle) ∈ recordedNames state space ↔ state.lookup ⟨space, name⟩ = some handle ∧
      ¬ ((⟨space, name⟩ : Address) = ⟨.playlists, activeName⟩ ∧ state.activeTarget.isSome) := by
  rw [recordedNames, List.mem_filter, SortedMap.mem_entries_iff]
  refine and_congr Iff.rfl ?_
  rw [Bool.not_eq_true', Bool.eq_false_iff, not_iff_not]
  simp [and_assoc]

/-- What is written under an address is the content of a name that is written as a record. -/
theorem recorded_eq (address : Address) :
    state.recorded address =
      if address.name ∈ (recordedNames state address.space).map Prod.fst then
        state.shapeAt address
      else none := by
  have listed : address.name ∈ (recordedNames state address.space).map Prod.fst ↔
      (state.lookup address).isSome ∧
        ¬ (address = ⟨.playlists, activeName⟩ ∧ state.activeTarget.isSome) := by
    simp only [List.mem_map, Prod.exists, exists_and_right, exists_eq_right, mem_recordedNames,
      exists_and_right, Option.isSome_iff_exists]
  rw [State.recorded]
  simp only [listed]
  by_cases stands : address = ⟨.playlists, activeName⟩ ∧ state.activeTarget.isSome
  · rw [if_pos stands, if_neg fun both => both.2 stands]
  · rw [if_neg stands, State.shapeAt]
    cases state.lookup address with
    | none => exact (ite_self none).symm
    | some handle => rw [if_pos ⟨rfl, stands⟩]

theorem lookup_isNone_iff {entries : List (String × Handle)} {name : String} :
    (entries.lookup name).isNone ↔ name ∉ entries.map Prod.fst := by
  rw [Option.isNone_iff_eq_none, List.lookup_eq_none_iff]
  constructor
  · intro absent member
    obtain ⟨entry, inside, rfl⟩ := List.mem_map.1 member
    exact absurd rfl (bne_iff_ne.1 (absent entry inside))
  · intro absent entry inside
    exact bne_iff_ne.2 fun same => absent (same ▸ List.mem_map_of_mem inside)

end Registry

/-! ## The calls that write a namespace -/

namespace State

/-- The names of a namespace that are written as records. -/
def recordedKeys (state : State) (space : Namespace) : List String :=
  (Registry.recordedNames state space).map Prod.fst

/-- The calls that write the records of a namespace. -/
def recording (state : State) (space : Namespace) : List StoreCall :=
  (state.recordedKeys space).filterMap fun name =>
    (state.entry (.record ⟨space, name⟩)).map (.set ⟨space, name⟩)

/-- The call that writes which playlist is active, where playlists are written. -/
def noting (state : State) : Namespace → List StoreCall
  | .collections => []
  | .playlists => [.setActive state.activeTarget]

/-- The calls that write a namespace: the records, then a look at what is in the store, then the removal
of stale records, and then which playlist is active. -/
def calls (state : State) (space : Namespace) (stale : List String) : List StoreCall :=
  state.recording space ++ .list space :: (stale.map fun name => .remove ⟨space, name⟩) ++
    state.noting space

variable {state : State} {space : Namespace} {name : String} {stale : List String}

theorem recordedKeys_eq : state.recordedKeys space =
    ((state.names space).filter fun name _ =>
      !(space == .playlists && name == activeName && state.activeTarget.isSome)).keys := rfl

theorem entry_record : state.entry (.record ⟨space, name⟩) =
    if name ∈ state.recordedKeys space then
      (state.shapeAt ⟨space, name⟩).map Record.write
    else none := by
  rw [entry, Registry.recorded_eq, apply_ite (Option.map Record.write)]
  rfl

theorem mem_recordedKeys (sound : state.Sound) :
    name ∈ state.recordedKeys space ↔ (state.entry (.record ⟨space, name⟩)).isSome := by
  rw [entry_record]
  split
  · next listed =>
    obtain ⟨⟨_, handle⟩, member, rfl⟩ := List.mem_map.1 listed
    have leads := (Registry.mem_recordedNames.1 member).1
    rw [Option.isSome_map, sound.shapeAt_isSome, leads]
    exact iff_of_true listed rfl
  · next absent => exact iff_of_false absent Bool.false_ne_true

theorem mem_recording {call : StoreCall} (member : call ∈ state.recording space) :
    ∃ name record, name ∈ state.recordedKeys space ∧
      state.entry (.record ⟨space, name⟩) = some record ∧ call = .set ⟨space, name⟩ record := by
  obtain ⟨name, listed, made⟩ := List.mem_filterMap.1 member
  obtain ⟨record, found, rfl⟩ := Option.map_eq_some_iff.1 made
  exact ⟨name, record, listed, found, rfl⟩

theorem conveys_recording : ∀ call ∈ state.recording space, call.Conveys state := by
  intro call member
  obtain ⟨_, _, -, found, rfl⟩ := mem_recording member
  exact found

theorem conveys_calls (absent : ∀ name ∈ stale, name ∉ state.recordedKeys space) :
    ∀ call ∈ state.calls space stale, call.Conveys state := by
  intro call member
  simp only [calls, List.mem_append, List.mem_cons, List.mem_map] at member
  rcases member with (recorded | rfl | ⟨name, listed, rfl⟩) | noted
  · exact conveys_recording call recorded
  · trivial
  · exact entry_record.trans (if_neg (absent name listed))
  · cases space with
    | collections => cases noted
    | playlists =>
        obtain rfl := List.mem_singleton.1 noted
        rfl

/-- The calls for records write to the names that are written. -/
theorem entries_recording (sound : state.Sound) :
    (state.recording space).filterMap StoreCall.target? =
      (state.recordedKeys space).map fun name => .record ⟨space, name⟩ := by
  rw [recording, List.filterMap_filterMap, ← List.filterMap_eq_map]
  refine List.filterMap_congr fun name listed => ?_
  obtain ⟨record, found⟩ := Option.isSome_iff_exists.1 ((mem_recordedKeys sound).1 listed)
  rw [found]
  rfl

theorem entries_calls (sound : state.Sound) :
    (state.calls space stale).filterMap StoreCall.target? =
      (state.recordedKeys space ++ stale).map (fun name => .record ⟨space, name⟩) ++
        if space = .playlists then [.active] else [] := by
  have removes : (stale.map fun name => StoreCall.remove ⟨space, name⟩).filterMap StoreCall.target? =
      stale.map fun name => .record ⟨space, name⟩ := by
    rw [List.filterMap_map, ← List.filterMap_eq_map]
    rfl
  have notes : (state.noting space).filterMap StoreCall.target? =
      if space = .playlists then [.active] else [] := by
    cases space <;> rfl
  rw [calls, List.filterMap_append, List.filterMap_append, entries_recording sound, notes,
    List.filterMap_cons_none rfl, removes, List.map_append]

/-- The records that are written or removed are those of the namespace. -/
theorem record_mem_calls (sound : state.Sound) {address : Address} :
    .record address ∈ (state.calls space stale).filterMap StoreCall.target? ↔
      address.space = space ∧ (address.name ∈ state.recordedKeys space ∨ address.name ∈ stale) := by
  obtain ⟨other, name⟩ := address
  rw [entries_calls sound]
  cases space <;> cases other <;> simp

theorem active_mem_calls (sound : state.Sound) :
    .active ∈ (state.calls space stale).filterMap StoreCall.target? ↔ space = .playlists := by
  rw [entries_calls sound]
  cases space <;> simp

/-- The calls for records leave the names alone that are not written. -/
theorem entry_recording (sound : state.Sound) (absent : name ∉ state.recordedKeys space)
    (store : MemoryStore) :
    ((state.recording space).foldl StoreCall.act store).entry (.record ⟨space, name⟩) =
      store.entry (.record ⟨space, name⟩) := by
  rw [StoreCall.entry_foldl conveys_recording, entries_recording sound, if_neg]
  simpa using absent

end State

namespace Registry

section Writing

variable {σ : Type} [RecordStore σ] {state : State} (sound : state.Sound) {space : Namespace}

include sound

/-- The records of names are written by one call each. -/
theorem writeRecords_eq {names : List (String × Handle)}
    (listed : ∀ entry ∈ names, entry ∈ recordedNames state space) :
    (forM names fun (name, handle) => writeRecord state ⟨space, name⟩ handle : Storing σ Unit) =
      StoreCall.runAll ((names.map Prod.fst).filterMap fun name =>
        (state.entry (.record ⟨space, name⟩)).map (.set ⟨space, name⟩)) := by
  induction names with
  | nil => rfl
  | cons entry rest ih =>
      obtain ⟨name, handle⟩ := entry
      have member := listed _ (.head _)
      have leads := (mem_recordedNames.1 member).1
      obtain ⟨tree, stored⟩ := Option.isSome_iff_exists.1 (sound.occupied leads)
      have key : name ∈ state.recordedKeys space := List.mem_map_of_mem (f := Prod.fst) member
      have record : state.entry (.record ⟨space, name⟩) = some (Record.write tree) := by
        rw [State.entry_record, if_pos key, State.shapeAt_of_lookup leads,
          State.content_of_resolve stored, Option.map_some, Record.write_shape]
      have first : (writeRecord state ⟨space, name⟩ handle : Storing σ Unit) =
          (StoreCall.set ⟨space, name⟩ (Record.write tree)).run := by
        rw [writeRecord, stored]
        rfl
      rw [List.forM_cons, ih fun entry inside => listed entry (.tail _ inside), List.map_cons,
        List.filterMap_cons_some (by rw [record]; rfl)]
      exact congrArg (· >>= fun _ => _) first

/-- A namespace is written by its calls, where a look at the store shows what is stale. -/
theorem writeNamespace_eq_runAll {stale : List String} {store : σ}
    (shows : ∀ written names,
      (StoreCall.runAll (state.recording space)).run store = (.ok (), written) →
      RecordStore.list written space = .ok names →
      names.filter (fun name => name ∉ state.recordedKeys space) = stale) :
    (writeNamespace state space).run store =
      (StoreCall.runAll (state.calls space stale)).run store := by
  have records := @writeRecords_eq σ _ state sound space (recordedNames state space)
    fun _ member => member
  have unlisted : (fun name => ((recordedNames state space).lookup name).isNone) =
      fun name => decide (name ∉ state.recordedKeys space) :=
    funext fun name => Bool.eq_iff_iff.2 (lookup_isNone_iff.trans decide_eq_true_iff.symm)
  unfold writeNamespace StoreCall.runAll State.calls
  rw [List.append_assoc, List.forM_append, List.cons_append, List.forM_cons]
  simp only [List.forM_eq_forM]
  rw [records, unlisted]
  refine storing_bind_congr fun _ written succeeds => ?_
  rw [list_bind_run, storing_bind_run, list_run]
  cases lists : RecordStore.list written space with
  | error error => rfl
  | ok names =>
      simp only [shows written names succeeds lists]
      rw [List.forM_append, List.forM_map]
      refine storing_bind_congr fun _ last _ => ?_
      cases space with
      | collections => rfl
      | playlists =>
          have noted : (forM (state.noting .playlists) StoreCall.run : Storing σ Unit) =
              RecordStore.setActive state.activeTarget := by
            show (RecordStore.setActive state.activeTarget >>= fun _ => pure ()) = _
            exact bind_pure_unit
          rw [noted]

end Writing

end Registry

end Medley
