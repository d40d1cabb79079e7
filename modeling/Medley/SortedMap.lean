/-!
# Maps sorted by key

A finite map kept as its list of entries in strictly ascending key order.  The order is part of the
type, so a map has exactly one representation: two maps with the same look-ups are equal
(`SortedMap.ext_get?`), and listing the entries is listing the map.
-/

namespace Medley

universe u v

/-- A finite map, held as entries in strictly ascending key order. -/
structure SortedMap (κ : Type u) [Ord κ] (α : Type v) where
  entries : List (κ × α)
  sorted : entries.Pairwise fun left right => compare left.1 right.1 = .lt

namespace SortedMap

variable {κ : Type u} [Ord κ] {α : Type v}

@[ext] theorem ext {left right : SortedMap κ α} (equal : left.entries = right.entries) :
    left = right := by
  cases left; cases right; cases equal; rfl

instance [DecidableEq κ] [DecidableEq α] : DecidableEq (SortedMap κ α) := fun left right =>
  decidable_of_iff (left.entries = right.entries) ⟨ext, fun equal => equal ▸ rfl⟩

/-- The map without entries. -/
def empty : SortedMap κ α := ⟨[], .nil⟩

instance : Inhabited (SortedMap κ α) := ⟨empty⟩

instance : EmptyCollection (SortedMap κ α) := ⟨empty⟩

@[simp] theorem entries_empty : (∅ : SortedMap κ α).entries = [] := rfl

/-- Keys in ascending order. -/
def keys (map : SortedMap κ α) : List κ := map.entries.map Prod.fst

/-- Values in the order of their keys. -/
def values (map : SortedMap κ α) : List α := map.entries.map Prod.snd

/-- Number of entries. -/
def size (map : SortedMap κ α) : Nat := map.entries.length

/-- Whether the map has no entries. -/
def isEmpty (map : SortedMap κ α) : Bool := map.entries.isEmpty

/-- The value of the first entry whose key compares equal. -/
def lookup (key : κ) : List (κ × α) → Option α
  | [] => none
  | (other, value) :: rest => if compare key other = .eq then some value else lookup key rest

/-- The value stored under a key. -/
def get? (map : SortedMap κ α) (key : κ) : Option α := lookup key map.entries

/-- Whether a key has a value. -/
def contains (map : SortedMap κ α) (key : κ) : Bool := (map.get? key).isSome

@[simp] theorem get?_empty (key : κ) : (∅ : SortedMap κ α).get? key = none := rfl

theorem contains_eq_isSome (map : SortedMap κ α) (key : κ) :
    map.contains key = (map.get? key).isSome := rfl

/-- Put an entry at its place, replacing one with the same key. -/
def put (key : κ) (value : α) : List (κ × α) → List (κ × α)
  | [] => [(key, value)]
  | (other, old) :: rest =>
      match compare key other with
      | .lt => (key, value) :: (other, old) :: rest
      | .eq => (key, value) :: rest
      | .gt => (other, old) :: put key value rest

/-- Drop the entry with the given key. -/
def drop (key : κ) : List (κ × α) → List (κ × α)
  | [] => []
  | (other, old) :: rest => if compare key other = .eq then rest else (other, old) :: drop key rest

theorem mem_put {key : κ} {value : α} {entry : κ × α} {entries : List (κ × α)}
    (member : entry ∈ put key value entries) : entry = (key, value) ∨ entry ∈ entries := by
  induction entries with
  | nil => exact .inl (by simpa [put] using member)
  | cons head rest ih =>
      obtain ⟨other, old⟩ := head
      unfold put at member
      split at member
      · simp only [List.mem_cons] at member ⊢
        exact member
      · simp only [List.mem_cons] at member ⊢
        exact member.imp_right .inr
      · simp only [List.mem_cons] at member ⊢
        rcases member with here | there
        · exact .inr (.inl here)
        · exact (ih there).imp_right .inr

theorem drop_sublist (key : κ) (entries : List (κ × α)) : (drop key entries).Sublist entries := by
  induction entries with
  | nil => exact .slnil
  | cons head rest ih =>
      obtain ⟨other, old⟩ := head
      unfold drop
      split
      · exact .cons _ (.refl _)
      · exact .cons_cons _ ih

/-- The map without the entry of a key. -/
def erase (map : SortedMap κ α) (key : κ) : SortedMap κ α :=
  ⟨drop key map.entries, map.sorted.sublist (drop_sublist key map.entries)⟩

/-- The entries that a test accepts. -/
def filter (map : SortedMap κ α) (keep : κ → α → Bool) : SortedMap κ α :=
  ⟨map.entries.filter fun entry => keep entry.1 entry.2,
    map.sorted.sublist List.filter_sublist⟩

/-- The same keys with every value replaced by its image. -/
def mapValues {β : Type v} (map : SortedMap κ α) (image : α → β) : SortedMap κ β :=
  ⟨map.entries.map fun entry => (entry.1, image entry.2), by
    rw [List.pairwise_map]
    exact map.sorted⟩

theorem lookup_map {β : Type v} (image : α → β) (key : κ) (entries : List (κ × α)) :
    lookup key (entries.map fun entry => (entry.1, image entry.2)) =
      (lookup key entries).map image := by
  induction entries with
  | nil => rfl
  | cons head rest ih =>
      simp only [List.map_cons, lookup]
      split <;> simp [ih]

@[simp] theorem get?_mapValues {β : Type v} (map : SortedMap κ α) (image : α → β) (key : κ) :
    (map.mapValues image).get? key = (map.get? key).map image :=
  lookup_map image key map.entries

@[simp] theorem keys_mapValues {β : Type v} (map : SortedMap κ α) (image : α → β) :
    (map.mapValues image).keys = map.keys := by
  simp [keys, mapValues, Function.comp_def]

section Lawful

variable [Std.TransOrd κ] [Std.LawfulEqOrd κ]

theorem put_sorted (key : κ) (value : α) {entries : List (κ × α)}
    (sorted : entries.Pairwise fun left right => compare left.1 right.1 = .lt) :
    (put key value entries).Pairwise fun left right => compare left.1 right.1 = .lt := by
  induction entries with
  | nil => simp [put]
  | cons head rest ih =>
      obtain ⟨other, old⟩ := head
      rw [List.pairwise_cons] at sorted
      unfold put
      split
      · next before =>
        refine .cons (fun entry member => ?_) (List.pairwise_cons.2 sorted)
        rcases List.mem_cons.1 member with here | there
        · subst here; exact before
        · exact Std.TransCmp.lt_trans before (sorted.1 entry there)
      · next same =>
        have equal : key = other := Std.LawfulEqCmp.eq_of_compare same
        subst equal
        exact .cons sorted.1 sorted.2
      · next after =>
        refine .cons (fun entry member => ?_) (ih sorted.2)
        rcases mem_put member with here | there
        · subst here; exact Std.OrientedCmp.lt_of_gt after
        · exact sorted.1 entry there

/-- The map with a value stored under a key, replacing the value it had. -/
def insert (map : SortedMap κ α) (key : κ) (value : α) : SortedMap κ α :=
  ⟨put key value map.entries, put_sorted key value map.sorted⟩

/-- The map of a list of entries; a later entry replaces an earlier one with the same key. -/
def ofList (entries : List (κ × α)) : SortedMap κ α :=
  entries.foldl (fun map entry => map.insert entry.1 entry.2) ∅

@[simp] theorem ofList_nil : (ofList [] : SortedMap κ α) = ∅ := rfl

omit [Std.TransOrd κ] in
theorem lookup_put_self (key : κ) (value : α) (entries : List (κ × α)) :
    lookup key (put key value entries) = some value := by
  induction entries with
  | nil => simp [put, lookup]
  | cons head rest ih =>
      obtain ⟨other, old⟩ := head
      unfold put
      split
      · simp [lookup]
      · simp [lookup]
      · next after => simp [lookup, after, ih]

omit [Std.TransOrd κ] in
theorem lookup_put_of_ne {key other : κ} (different : other ≠ key) (value : α)
    (entries : List (κ × α)) : lookup other (put key value entries) = lookup other entries := by
  have unequal : ¬ compare other key = .eq := fun same =>
    different (Std.LawfulEqCmp.eq_of_compare same)
  induction entries with
  | nil => simp [put, lookup, unequal]
  | cons head rest ih =>
      obtain ⟨first, old⟩ := head
      unfold put
      split
      · simp [lookup, unequal]
      · next same =>
        have equal : key = first := Std.LawfulEqCmp.eq_of_compare same
        subst equal
        simp [lookup, unequal]
      · simp [lookup, ih]

@[simp] theorem get?_insert_self (map : SortedMap κ α) (key : κ) (value : α) :
    (map.insert key value).get? key = some value :=
  lookup_put_self key value map.entries

theorem get?_insert_of_ne (map : SortedMap κ α) {key other : κ} (different : other ≠ key)
    (value : α) : (map.insert key value).get? other = map.get? other :=
  lookup_put_of_ne different value map.entries

theorem get?_insert [DecidableEq κ] (map : SortedMap κ α) (key other : κ) (value : α) :
    (map.insert key value).get? other = if other = key then some value else map.get? other := by
  split
  · next equal => subst equal; exact get?_insert_self map other value
  · next different => exact get?_insert_of_ne map different value

omit [Std.TransOrd κ] in
theorem mem_entries_iff {map : SortedMap κ α} {key : κ} {value : α} :
    (key, value) ∈ map.entries ↔ map.get? key = some value := by
  obtain ⟨entries, sorted⟩ := map
  simp only [get?]
  induction entries with
  | nil => simp [lookup]
  | cons head rest ih =>
      obtain ⟨other, old⟩ := head
      rw [List.pairwise_cons] at sorted
      simp only [lookup, List.mem_cons, Prod.mk.injEq]
      split
      · next same =>
        have equal : key = other := Std.LawfulEqCmp.eq_of_compare same
        subst equal
        constructor
        · rintro (⟨-, rfl⟩ | member)
          · rfl
          · have before := sorted.1 (key, value) member
            simp at before
        · intro found
          exact .inl ⟨rfl, (Option.some.inj found).symm⟩
      · next unequal =>
        rw [← ih sorted.2]
        constructor
        · rintro (⟨rfl, -⟩ | member)
          · simp at unequal
          · exact member
        · exact .inr

omit [Std.TransOrd κ] in
theorem mem_keys_iff {map : SortedMap κ α} {key : κ} :
    key ∈ map.keys ↔ (map.get? key).isSome := by
  simp only [keys, List.mem_map, Prod.exists, exists_and_right, exists_eq_right, mem_entries_iff,
    Option.isSome_iff_exists]

omit [Std.TransOrd κ] in
theorem lookup_drop_self {key : κ} {entries : List (κ × α)}
    (sorted : entries.Pairwise fun left right => compare left.1 right.1 = .lt) :
    lookup key (drop key entries) = none := by
  induction entries with
  | nil => rfl
  | cons head rest ih =>
      obtain ⟨other, old⟩ := head
      rw [List.pairwise_cons] at sorted
      unfold drop
      split
      · next same =>
        have equal : key = other := Std.LawfulEqCmp.eq_of_compare same
        subst equal
        cases found : lookup key rest with
        | none => rfl
        | some value =>
            have member : (key, value) ∈ rest :=
              (@mem_entries_iff _ _ _ _ ⟨rest, sorted.2⟩ key value).2 found
            have before := sorted.1 (key, value) member
            simp at before
      · next unequal => simp [lookup, unequal, ih sorted.2]

omit [Std.TransOrd κ] in
theorem lookup_drop_of_ne {key other : κ} (different : other ≠ key) (entries : List (κ × α)) :
    lookup other (drop key entries) = lookup other entries := by
  induction entries with
  | nil => rfl
  | cons head rest ih =>
      obtain ⟨first, old⟩ := head
      unfold drop
      split
      · next same =>
        have equal : key = first := Std.LawfulEqCmp.eq_of_compare same
        subst equal
        have unequal : ¬ compare other key = .eq := fun same =>
          different (Std.LawfulEqCmp.eq_of_compare same)
        simp [lookup, unequal]
      · simp [lookup, ih]

omit [Std.TransOrd κ] in
@[simp] theorem get?_erase_self (map : SortedMap κ α) (key : κ) :
    (map.erase key).get? key = none :=
  lookup_drop_self map.sorted

omit [Std.TransOrd κ] in
theorem get?_erase_of_ne (map : SortedMap κ α) {key other : κ} (different : other ≠ key) :
    (map.erase key).get? other = map.get? other :=
  lookup_drop_of_ne different map.entries

omit [Std.TransOrd κ] in
theorem get?_erase [DecidableEq κ] (map : SortedMap κ α) (key other : κ) :
    (map.erase key).get? other = if other = key then none else map.get? other := by
  split
  · next equal => subst equal; exact get?_erase_self map other
  · next different => exact get?_erase_of_ne map different

/-- A map is determined by its look-ups. -/
theorem ext_get? {left right : SortedMap κ α} (equal : ∀ key, left.get? key = right.get? key) :
    left = right := by
  have members : ∀ entry, entry ∈ left.entries ↔ entry ∈ right.entries := fun ⟨key, value⟩ => by
    rw [mem_entries_iff, mem_entries_iff, equal key]
  obtain ⟨first, firstSorted⟩ := left
  obtain ⟨second, secondSorted⟩ := right
  refine ext ?_
  clear equal
  simp only at members ⊢
  induction first generalizing second with
  | nil =>
      cases second with
      | nil => rfl
      | cons head rest => exact absurd ((members head).2 (.head _)) (by simp)
  | cons head rest ih =>
      cases second with
      | nil => exact absurd ((members head).1 (.head _)) (by simp)
      | cons other others =>
          rw [List.pairwise_cons] at firstSorted secondSorted
          have same : head = other := by
            rcases List.mem_cons.1 ((members head).1 (.head _)) with here | there
            · exact here
            · rcases List.mem_cons.1 ((members other).2 (.head _)) with here' | there'
              · exact here'.symm
              · have before := firstSorted.1 other there'
                have after := secondSorted.1 head there
                have loop := Std.TransCmp.lt_trans before after
                simp at loop
          subst same
          refine congrArg _ (ih firstSorted.2 others secondSorted.2 fun entry => ?_)
          have notHead : ∀ entries : List (κ × α),
              (∀ entry ∈ entries, compare head.1 entry.1 = .lt) → head ∉ entries := by
            intro entries after member
            have loop := after head member
            simp at loop
          constructor
          · intro member
            rcases List.mem_cons.1 ((members entry).1 (.tail _ member)) with here | there
            · subst here; exact absurd member (notHead rest firstSorted.1)
            · exact there
          · intro member
            rcases List.mem_cons.1 ((members entry).2 (.tail _ member)) with here | there
            · subst here; exact absurd member (notHead others secondSorted.1)
            · exact there

end Lawful

end SortedMap

end Medley
