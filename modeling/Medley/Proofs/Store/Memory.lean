import Medley.Store.Memory

/-!
# Stores in memory

What a store in memory has under an address once a record was stored or removed, and what calls do that
are made one after the other.
-/

namespace Medley

theorem SortedMap.nodup_keys {κ : Type} [Ord κ] [Std.TransOrd κ] {α : Type} (map : SortedMap κ α) :
    map.keys.Nodup := by
  refine List.pairwise_map.2 (map.sorted.imp ?_)
  intro left right before same
  rw [same] at before
  simp at before

/-- The keys of a map are the names that have a value, put in order. -/
theorem SortedMap.mergeSort_eq_keys {κ : Type} [Ord κ] [Std.TransOrd κ] [Std.LawfulEqOrd κ] {α : Type}
    {map : SortedMap κ α} {names : List κ} (nodup : names.Nodup)
    (members : ∀ name, name ∈ names ↔ (map.get? name).isSome) :
    (names.mergeSort fun left right => (compare left right).isLE) = map.keys := by
  have perm : names.Perm map.keys := (List.perm_ext_iff_of_nodup nodup map.nodup_keys).2 fun name =>
    (members name).trans mem_keys_iff.symm
  refine ((List.mergeSort_perm ..).trans perm).eq_of_pairwise ?_
    (List.pairwise_mergeSort ?_ ?_ names) (List.pairwise_map.2 (map.sorted.imp ?_))
  · intro left right _ _ before after
    exact Std.LawfulEqCmp.eq_of_compare (Std.OrientedCmp.isLE_antisymm before after)
  · intro left middle right
    exact Std.TransCmp.isLE_trans
  · intro left right
    rw [Bool.or_eq_true, Decidable.or_iff_not_imp_left]
    intro after
    rw [Std.OrientedCmp.lt_of_not_isLE after]
    rfl
  · intro left right before
    rw [before]
    rfl

namespace MemoryStore

variable (store : MemoryStore) (address other : Address)

theorem get?_setRecords (space : Namespace) (records : Records) :
    (store.setRecords space records).get? other =
      if other.space = space then records.get? other.name else store.get? other := by
  unfold get?
  split
  · next same => rw [same, records_setRecords_self]
  · next different => rw [records_setRecords_of_ne _ different]

theorem get?_insert (record : String) :
    (store.insert address record).get? other =
      if other = address then some record else store.get? other := by
  obtain ⟨space, name⟩ := address
  obtain ⟨space', name'⟩ := other
  rw [insert, get?_setRecords]
  simp only [Address.mk.injEq]
  by_cases same : space' = space
  · subst same
    rw [if_pos rfl, SortedMap.get?_insert]
    simp only [true_and]
    rfl
  · rw [if_neg same, if_neg fun both => same both.1]

theorem get?_erase :
    (store.erase address).get? other = if other = address then none else store.get? other := by
  obtain ⟨space, name⟩ := address
  obtain ⟨space', name'⟩ := other
  rw [erase, get?_setRecords]
  simp only [Address.mk.injEq]
  by_cases same : space' = space
  · subst same
    rw [if_pos rfl, SortedMap.get?_erase]
    simp only [true_and]
    rfl
  · rw [if_neg same, if_neg fun both => same both.1]

@[simp] theorem active_insert (record : String) : (store.insert address record).active = store.active :=
  active_setRecords ..

@[simp] theorem active_erase : (store.erase address).active = store.active := active_setRecords ..

end MemoryStore

/-! ## One call after the other -/

namespace Registry

section Sequences

variable {σ ε α β : Type}

theorem storing_bind_run (action : ExceptT ε (StateM σ) α) (next : α → ExceptT ε (StateM σ) β)
    (store : σ) :
    (action >>= next).run store =
      match action.run store with
      | (.ok value, after) => (next value).run after
      | (.error error, after) => (.error error, after) := by
  simp only [bind, ExceptT.bind, ExceptT.run, ExceptT.mk, ExceptT.bindCont, StateT.bind]
  cases action store with
  | mk result after => cases result <;> rfl

theorem storing_bind {action : ExceptT ε (StateM σ) α} {next : α → ExceptT ε (StateM σ) β} {value : α}
    {store after : σ} (runs : action.run store = (.ok value, after)) :
    (action >>= next).run store = (next value).run after := by
  rw [storing_bind_run, runs]

/-- What is done after an action matters only where the action succeeds. -/
theorem storing_bind_congr {action : ExceptT ε (StateM σ) α} {next other : α → ExceptT ε (StateM σ) β}
    {store : σ}
    (same : ∀ value after, action.run store = (.ok value, after) →
      (next value).run after = (other value).run after) :
    (action >>= next).run store = (action >>= other).run store := by
  rw [storing_bind_run, storing_bind_run]
  cases acts : action.run store with
  | mk result after =>
      cases result with
      | ok value => exact same value after acts
      | error error => rfl

end Sequences

end Registry

end Medley
