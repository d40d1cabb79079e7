import Mathlib.Data.List.Basic
import Medley.Registry.Change

/-!
# Slots and names

What the operations on slots and names do, seen through the two look-ups: `State.lookup` from
addresses to handles and `State.resolve` from handles to collections.  The numbers of empty slots are
accounted for (`State.Tidy`), so a collection that is put into a slot displaces none.
-/

namespace Medley.State

variable {state : State} {address other : Address} {handle another : Handle} {node : Node}

/-- The free numbers are those of the empty slots, each once. -/
structure Tidy (state : State) : Prop where
  mem_free : ∀ index, index ∈ state.free ↔
    index < state.slots.length ∧ state.resolve ⟨index⟩ = none
  nodup : state.free.Nodup

/-! ## Names -/

theorem lookup_setNames (space : Namespace) (names : Names) :
    (state.setNames space names).lookup address =
      if address.space = space then names.get? address.name else state.lookup address := by
  unfold lookup
  split
  · next same => rw [same, names_setNames_self]
  · next different => rw [names_setNames_of_ne _ different]

theorem lookup_point :
    (state.point address handle).lookup other =
      if other = address then some handle else state.lookup other := by
  rw [point, lookup_setNames]
  obtain ⟨space, name⟩ := address
  obtain ⟨space', name'⟩ := other
  simp only [Address.mk.injEq]
  by_cases sameSpace : space' = space
  · subst sameSpace
    rw [if_pos rfl, SortedMap.get?_insert]
    simp only [true_and]
    rfl
  · rw [if_neg sameSpace, if_neg fun same => sameSpace same.1]

theorem lookup_unname :
    (state.unname address).lookup other =
      if other = address then none else state.lookup other := by
  rw [unname, lookup_setNames]
  obtain ⟨space, name⟩ := address
  obtain ⟨space', name'⟩ := other
  simp only [Address.mk.injEq]
  by_cases sameSpace : space' = space
  · subst sameSpace
    rw [if_pos rfl, SortedMap.get?_erase]
    simp only [true_and]
    rfl
  · rw [if_neg sameSpace, if_neg fun same => sameSpace same.1]

theorem isNamed_eq_true :
    state.isNamed handle = true ↔ ∃ address, state.lookup address = some handle := by
  simp only [isNamed, List.any_eq_true, Namespace.mem_all, true_and, List.contains_iff_mem,
    SortedMap.values, List.mem_map, Prod.exists, exists_eq_right, SortedMap.mem_entries_iff]
  constructor
  · rintro ⟨space, name, found⟩
    exact ⟨⟨space, name⟩, found⟩
  · rintro ⟨address, found⟩
    exact ⟨address.space, address.name, found⟩

theorem mem_aliases {name : String} {space : Namespace} :
    name ∈ state.aliases handle space ↔ state.lookup ⟨space, name⟩ = some handle := by
  simp only [aliases, List.mem_map, List.mem_filter, beq_iff_eq, Prod.exists, exists_and_right,
    exists_eq_right, lookup]
  simp [SortedMap.mem_entries_iff]

theorem resolve_congr {left right : State} (slots : left.slots = right.slots) (handle : Handle) :
    left.resolve handle = right.resolve handle := by
  rw [resolve, resolve, slots]

@[simp] theorem resolve_point :
    (state.point address handle).resolve another = state.resolve another :=
  resolve_congr (slots_setNames ..) another

@[simp] theorem resolve_unname : (state.unname address).resolve handle = state.resolve handle :=
  resolve_congr (slots_setNames ..) handle

theorem tidy_congr {left right : State} (slots : left.slots = right.slots)
    (free : left.free = right.free) : left.Tidy ↔ right.Tidy := by
  constructor <;> intro tidy
  · exact ⟨fun index => by rw [← free, tidy.mem_free, slots, resolve_congr slots], free ▸ tidy.nodup⟩
  · exact ⟨fun index => by rw [free, tidy.mem_free, slots, resolve_congr slots], free ▸ tidy.nodup⟩

theorem tidy_setNames {space : Namespace} {names : Names} :
    (state.setNames space names).Tidy ↔ state.Tidy :=
  tidy_congr (slots_setNames ..) (free_setNames ..)

/-! ## Slots -/

theorem lt_length_of_resolve (found : state.resolve handle = some node) :
    handle.index < state.slots.length := by
  rcases Nat.lt_or_ge handle.index state.slots.length with below | above
  · exact below
  · simp [resolve, List.getElem?_eq_none above] at found

theorem resolve_of_slots_set {next : State} {index : Nat} {slot : Option Node}
    (slots : next.slots = state.slots.set index slot) (below : index < state.slots.length) :
    next.resolve handle = if handle = ⟨index⟩ then slot else state.resolve handle := by
  obtain ⟨number⟩ := handle
  simp only [resolve, slots, List.getElem?_set, Handle.mk.injEq]
  by_cases same : index = number
  · subst same
    simp [below]
  · rw [if_neg same, if_neg (Ne.symm same)]

theorem resolve_replace (found : (state.resolve handle).isSome) :
    (state.replace handle node).resolve another =
      if another = handle then some node else state.resolve another := by
  obtain ⟨old, found⟩ := Option.isSome_iff_exists.1 found
  exact resolve_of_slots_set rfl (lt_length_of_resolve found)

@[simp] theorem lookup_replace :
    (state.replace handle node).lookup address = state.lookup address := by
  obtain ⟨space, name⟩ := address
  cases space <;> rfl

theorem Tidy.replace (tidy : state.Tidy) (found : (state.resolve handle).isSome) :
    (state.replace handle node).Tidy := by
  refine ⟨fun index => ?_, tidy.nodup⟩
  have length : (state.replace handle node).slots.length = state.slots.length := by
    simp [State.replace]
  rw [length, resolve_replace found]
  show index ∈ state.free ↔ _
  rw [tidy.mem_free]
  by_cases same : (⟨index⟩ : Handle) = handle
  · subst same
    simp [Option.isSome_iff_ne_none.1 found]
  · rw [if_neg same]

@[simp] theorem lookup_allocate (state : State) (node : Node) (address : Address) :
    (state.allocate node).2.lookup address = state.lookup address := by
  unfold allocate
  obtain ⟨space, name⟩ := address
  split <;> cases space <;> rfl

/-- A collection is put where none was. -/
theorem Tidy.resolve_allocate_self (tidy : state.Tidy) (node : Node) :
    state.resolve (state.allocate node).1 = none := by
  unfold allocate
  split
  · next index rest free => exact ((tidy.mem_free index).1 (by simp [free])).2
  · simp [resolve]

theorem Tidy.resolve_allocate (tidy : state.Tidy) (node : Node) (handle : Handle) :
    (state.allocate node).2.resolve handle =
      if handle = (state.allocate node).1 then some node else state.resolve handle := by
  unfold allocate
  split
  · next index rest free =>
    exact resolve_of_slots_set rfl ((tidy.mem_free index).1 (by simp [free])).1
  · obtain ⟨number⟩ := handle
    simp only [resolve, Handle.mk.injEq, List.getElem?_append]
    split
    · next below => rw [if_neg (Nat.ne_of_lt below)]
    · next above =>
      by_cases last : number = state.slots.length
      · simp [last]
      · have beyond : number - state.slots.length ≠ 0 := by omega
        rw [if_neg last, List.getElem?_eq_none (by simp; omega),
          List.getElem?_eq_none (by omega)]

theorem Tidy.allocate (tidy : state.Tidy) : (state.allocate node).2.Tidy := by
  have resolves := tidy.resolve_allocate node
  unfold State.allocate at resolves ⊢
  split at resolves
  · next index rest free =>
    have nodup := tidy.nodup
    rw [free, List.nodup_cons] at nodup
    refine ⟨fun number => ?_, nodup.2⟩
    simp only [resolves, List.length_set, Handle.mk.injEq]
    have known := tidy.mem_free number
    rw [free, List.mem_cons] at known
    by_cases same : number = index
    · subst same
      simp [nodup.1]
    · rw [if_neg same, ← known]
      simp [same]
  · next free =>
    refine ⟨fun number => ?_, tidy.nodup⟩
    have known := tidy.mem_free number
    have here := resolves ⟨number⟩
    simp only [Handle.mk.injEq] at here
    rw [here, List.length_append, List.length_singleton, known]
    by_cases last : number = state.slots.length
    · simp [last]
    · rw [if_neg last]
      exact and_congr_left fun _ => by omega

@[simp] theorem lookup_release : (state.release handle).lookup address = state.lookup address := by
  unfold release
  obtain ⟨space, name⟩ := address
  split
  · rfl
  · split <;> cases space <;> rfl

theorem resolve_release (state : State) (handle another : Handle) :
    (state.release handle).resolve another =
      if another = handle ∧ state.isNamed handle = false then none else state.resolve another := by
  unfold release
  cases named : state.isNamed handle with
  | true => simp
  | false =>
      cases found : state.resolve handle with
      | none =>
          by_cases same : another = handle
          · simp [same, found]
          · simp [same]
      | some node =>
          simp only [Bool.false_eq_true, if_false, Option.isSome_some, if_true, and_true]
          exact resolve_of_slots_set rfl (lt_length_of_resolve found)

theorem Tidy.release (tidy : state.Tidy) : (state.release handle).Tidy := by
  have resolves := resolve_release state handle
  unfold State.release at resolves ⊢
  cases named : state.isNamed handle with
  | true => simpa using tidy
  | false =>
      cases found : state.resolve handle with
      | none => simpa using tidy
      | some node =>
          simp only [named, found, Bool.false_eq_true, if_false, Option.isSome_some, if_true,
            and_true] at resolves ⊢
          have busy : handle.index ∉ state.free := fun free => by
            have empty := ((tidy.mem_free handle.index).1 free).2
            simp [found] at empty
          refine ⟨fun index => ?_, List.nodup_cons.2 ⟨busy, tidy.nodup⟩⟩
          rw [resolves, List.mem_cons, List.length_set, tidy.mem_free]
          by_cases same : (⟨index⟩ : Handle) = handle
          · subst same
            simp [lt_length_of_resolve found]
          · have different : index ≠ handle.index := fun equal => same (by rw [equal])
            simp [same, different]

theorem lookup_repoint :
    (state.repoint address handle).lookup other =
      if other = address then some handle else state.lookup other := by
  unfold repoint
  cases state.lookup address with
  | none => exact lookup_point
  | some old => exact lookup_release.trans lookup_point

/-- Pointing a name elsewhere empties the slot that it pointed to if that has no other name. -/
theorem resolve_repoint :
    (state.repoint address handle).resolve another =
      if state.lookup address = some another ∧ (state.point address handle).isNamed another = false
      then none else state.resolve another := by
  unfold repoint
  cases found : state.lookup address with
  | none => simp
  | some old =>
      simp only [resolve_release, Option.some.injEq, resolve_point]
      by_cases same : another = old
      · simp [same]
      · simp [same, Ne.symm same]

theorem Tidy.repoint (tidy : state.Tidy) : (state.repoint address handle).Tidy := by
  have pointed : (state.point address handle).Tidy := tidy_setNames.2 tidy
  unfold State.repoint
  cases state.lookup address with
  | none => exact pointed
  | some old => exact pointed.release

@[simp] theorem lookup_mapRoots (image : Node → Node) :
    (state.mapRoots image).lookup address = state.lookup address := by
  obtain ⟨space, name⟩ := address
  cases space <;> rfl

theorem Tidy.mapRoots (tidy : state.Tidy) (image : Node → Node) : (state.mapRoots image).Tidy := by
  refine ⟨fun index => ?_, tidy.nodup⟩
  rw [resolve_mapRoots, Option.map_eq_none_iff]
  exact (tidy.mem_free index).trans (by simp [State.mapRoots])

theorem lookup_pointAll (space : Namespace) (names : List String) :
    (state.pointAll space names handle).lookup address =
      if address.space = space ∧ address.name ∈ names then some handle
      else state.lookup address := by
  induction names generalizing state with
  | nil => simp [pointAll]
  | cons name rest ih =>
      rw [pointAll, List.foldl_cons, ← pointAll, ih, lookup_point]
      obtain ⟨space', name'⟩ := address
      simp only [Address.mk.injEq, List.mem_cons]
      grind

@[simp] theorem resolve_pointAll (space : Namespace) (names : List String) :
    (state.pointAll space names handle).resolve another = state.resolve another := by
  induction names generalizing state with
  | nil => rfl
  | cons name rest ih => rw [pointAll, List.foldl_cons, ← pointAll, ih, resolve_point]

theorem Tidy.pointAll (tidy : state.Tidy) (space : Namespace) (names : List String) :
    (state.pointAll space names handle).Tidy := by
  induction names generalizing state with
  | nil => exact tidy
  | cons name rest ih =>
      rw [State.pointAll, List.foldl_cons, ← State.pointAll]
      exact ih (tidy_setNames.2 tidy)

/-! ## What is seen of collections

A shape, an identity or a tree without links is an image of a collection; it follows the collection
through the slots. -/

section Seeing

variable {α : Type} {image : Node → α} {seen : α}

theorem map_resolve_replace (found : (state.resolve handle).isSome) :
    ((state.replace handle node).resolve another).map image =
      if another = handle then some (image node) else (state.resolve another).map image := by
  rw [resolve_replace found, apply_ite (Option.map image)]
  rfl

theorem Tidy.map_resolve_allocate (tidy : state.Tidy) (node : Node) (handle : Handle) :
    ((state.allocate node).2.resolve handle).map image =
      if handle = (state.allocate node).1 then some (image node)
      else (state.resolve handle).map image := by
  rw [tidy.resolve_allocate, apply_ite (Option.map image)]
  rfl

/-- A release may take a collection away and puts none anywhere. -/
theorem map_resolve_of_release
    (found : ((state.release handle).resolve another).map image = some seen) :
    (state.resolve another).map image = some seen := by
  rw [resolve_release] at found
  split at found
  · cases found
  · exact found

/-- Pointing a name elsewhere may take a collection away and puts none anywhere. -/
theorem map_resolve_of_repoint
    (found : ((state.repoint address handle).resolve another).map image = some seen) :
    (state.resolve another).map image = some seen := by
  rw [resolve_repoint] at found
  split at found
  · cases found
  · exact found

end Seeing

end Medley.State
