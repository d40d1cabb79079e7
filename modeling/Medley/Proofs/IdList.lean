import Mathlib.Data.List.InsertIdx
import Medley.IdList
import Medley.Proofs.Store.Memory

/-!
# Moving entries of lists

An entry is moved by taking it out and putting it in again, so that the indices between its two places
shift by one, in a direction that depends on which place comes first.  What is left of the list without the
entry is the same before and after, and so the move back restores the list (`IdList.move_there_and_back`).
An edit that fails has changed nothing (`IdList.Edit.IsAtomic`), because it first checks and then changes.
-/

namespace Medley.IdList

open Registry

/-- Whether an edit leaves every list as it was where it fails. -/
def Edit.IsAtomic {α : Type} (edit : Edit α) : Prop :=
  ∀ ids error after, edit.run ids = (.error error, after) → after = ids

section Editing

variable {α β : Type} {ids : List Int64} {index source target : Nat}

/-! ## Edits that fail -/

theorem Edit.IsAtomic.of_ok {edit : Edit α}
    (succeeds : ∀ ids, ∃ value after, edit.run ids = (.ok value, after)) : edit.IsAtomic := by
  intro ids error after fails
  obtain ⟨value, later, runs⟩ := succeeds ids
  rw [runs] at fails
  cases fails

/-- An atomic edit behind a check is atomic.  Two edits that change the list need not be, as the first one
may have changed it when the second one fails. -/
theorem Edit.IsAtomic.after_check {check : Edit α} {change : α → Edit β}
    (reads : ∀ ids, (check.run ids).2 = ids) (atomic : ∀ value, (change value).IsAtomic) :
    (check >>= change).IsAtomic := by
  intro ids error after fails
  have unchanged := reads ids
  rw [storing_bind_run] at fails
  split at fails
  · next value between runs =>
    rw [runs] at unchanged
    have same : between = ids := unchanged
    rw [same] at fails
    exact atomic value ids error after fails
  · next other between runs =>
    rw [runs] at unchanged
    cases fails
    exact unchanged

theorem entry_run (index : Nat) (ids : List Int64) :
    (entry index).run ids =
      (match ids[index]? with
        | some id => .ok id
        | none => .error { cause := .indexOutOfRange index ids.length }, ids) := by
  rw [entry, storing_bind_run]
  show (match ids[index]? with
    | some id => (pure id : Edit Int64)
    | none => outOfRange index).run ids = _
  cases ids[index]? with
  | some id => rfl
  | none => rfl

theorem reads_entry (index : Nat) (ids : List Int64) : ((entry index).run ids).2 = ids := by
  rw [entry_run]

theorem isAtomic_modify (change : List Int64 → List Int64) : (modify change : Edit Unit).IsAtomic :=
  .of_ok fun _ => ⟨(), _, rfl⟩

theorem isAtomic_insert (index : Nat) (id : Int64) : (insert index id).IsAtomic := by
  apply Edit.IsAtomic.after_check
  · intro ids
    rfl
  · intro ids
    split
    · exact isAtomic_modify _
    · intro ids error after fails
      cases fails
      rfl

theorem isAtomic_remove (index : Nat) : (remove index).IsAtomic := by
  apply Edit.IsAtomic.after_check (reads_entry index)
  intro id
  apply Edit.IsAtomic.of_ok
  intro ids
  exact ⟨id, _, rfl⟩

theorem isAtomic_set (index : Nat) (id : Int64) : (set index id).IsAtomic :=
  .after_check (reads_entry index) fun _ => isAtomic_modify _

theorem isAtomic_move (source target : Nat) : (move source target).IsAtomic := by
  apply Edit.IsAtomic.after_check (reads_entry source)
  intro id
  apply Edit.IsAtomic.after_check (reads_entry target)
  intro other
  apply Edit.IsAtomic.of_ok
  intro ids
  exact ⟨(), _, rfl⟩

/-! ## Moves -/

/-- What a move leaves: the entry taken out at one index and put in at the other. -/
theorem move_run (source target : Nat) (ids : List Int64) :
    (move source target).run ids =
      match ids[source]?, ids[target]? with
      | some id, some _ => (.ok (), (ids.eraseIdx source).insertIdx target id)
      | some _, none => (.error { cause := .indexOutOfRange target ids.length }, ids)
      | none, _ => (.error { cause := .indexOutOfRange source ids.length }, ids) := by
  rw [move, storing_bind_run, entry_run]
  cases ids[source]? with
  | none => rfl
  | some id =>
      show (entry target >>= _).run ids = _
      rw [storing_bind_run, entry_run]
      cases ids[target]? with
      | none => rfl
      | some other => rfl

theorem move_run_of_lt (inSource : source < ids.length) (inTarget : target < ids.length) :
    (move source target).run ids = (.ok (), (ids.eraseIdx source).insertIdx target ids[source]) := by
  rw [move_run, List.getElem?_eq_getElem inSource, List.getElem?_eq_getElem inTarget]

theorem lt_of_move {moved : List Int64} (moves : (move source target).run ids = (.ok (), moved)) :
    source < ids.length ∧ target < ids.length := by
  rw [move_run] at moves
  split at moves
  · next inSource inTarget =>
    exact ⟨(List.getElem?_eq_some_iff.1 inSource).1, (List.getElem?_eq_some_iff.1 inTarget).1⟩
  · cases moves
  · cases moves

section Moving

variable (inSource : source < ids.length) (inTarget : target < ids.length)

include inSource inTarget

/-- There is an end to put the entry at once it is taken out. -/
theorem le_length_eraseIdx : target ≤ (ids.eraseIdx source).length := by
  rw [List.length_eraseIdx_of_lt inSource]
  exact Nat.le_sub_one_of_lt inTarget

theorem length_moved (id : Int64) : ((ids.eraseIdx source).insertIdx target id).length = ids.length := by
  rw [List.length_insertIdx_of_le_length (le_length_eraseIdx inSource inTarget),
    List.length_eraseIdx_of_lt inSource]
  omega

theorem getElem?_moved (id : Int64) : ((ids.eraseIdx source).insertIdx target id)[target]? = some id := by
  rw [List.getElem?_insertIdx_self, if_pos (le_length_eraseIdx inSource inTarget)]

/-- The move back takes out what was put in, which leaves the list without the entry, and puts the entry
where it was taken out. -/
theorem move_back_run :
    (move target source).run ((ids.eraseIdx source).insertIdx target ids[source]) = (.ok (), ids) := by
  have size := length_moved inSource inTarget ids[source]
  have entryThere := getElem?_moved inSource inTarget ids[source]
  rw [move_run_of_lt (size ▸ inTarget) (size ▸ inSource), List.eraseIdx_insertIdx_self,
    (List.getElem?_eq_some_iff.1 entryThere).2, List.insertIdx_eraseIdx_getElem inSource]

end Moving

/-- A move succeeds exactly if both indices are in the list.  Then the entry stands where it was moved to,
the other entries are those from before in their order, and the move back restores the list.  No edit that
fails changes the list. -/
theorem move_there_and_back (ids : List Int64) (source target : Nat) :
    ((∃ moved, (move source target).run ids = (.ok (), moved)) ↔
      source < ids.length ∧ target < ids.length) ∧
    (∀ moved, (move source target).run ids = (.ok (), moved) →
      moved[target]? = ids[source]? ∧ moved.eraseIdx target = ids.eraseIdx source ∧
        (move target source).run moved = (.ok (), ids)) ∧
    (move source target).IsAtomic ∧
    ∀ index id, (insert index id).IsAtomic ∧ (remove index).IsAtomic ∧ (set index id).IsAtomic := by
  refine ⟨⟨?_, ?_⟩, ?_, isAtomic_move source target, ?_⟩
  · intro succeeds
    obtain ⟨moved, moves⟩ := succeeds
    exact lt_of_move moves
  · intro inside
    exact ⟨_, move_run_of_lt inside.1 inside.2⟩
  · intro moved moves
    have inside := lt_of_move moves
    rw [move_run_of_lt inside.1 inside.2] at moves
    cases moves
    refine ⟨?_, List.eraseIdx_insertIdx_self _, move_back_run inside.1 inside.2⟩
    rw [getElem?_moved inside.1 inside.2, List.getElem?_eq_getElem inside.1]
  · intro index id
    exact ⟨isAtomic_insert index id, isAtomic_remove index, isAtomic_set index id⟩

theorem move_there_and_back_repeated :
    (move 0 2).run [10, 20, 10, 30] = (.ok (), [20, 10, 10, 30]) ∧
      (move 2 0).run [20, 10, 10, 30] = (.ok (), [10, 20, 10, 30]) :=
  ⟨rfl, ((move_there_and_back [10, 20, 10, 30] 0 2).2.1 _ rfl).2.2⟩

end Editing

end Medley.IdList
