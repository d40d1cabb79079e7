import Mathlib.Data.List.Forall2

/-!
# Actions one after the other

A sequence of actions that may fail succeeds exactly when each of them does.  What it gives is then related
to the items of the sequence one by one (`List.mapM_eq_ok`), so that facts about the sequence are facts about
lists that are related element by element.
-/

namespace Medley

section Sequencing

variable {ε α β γ : Type}

theorem Except.bind_eq_ok {action : Except ε α} {next : α → Except ε β} {result : β} :
    action >>= next = .ok result ↔ ∃ value, action = .ok value ∧ next value = .ok result := by
  cases action <;> simp [bind, Except.bind]

theorem Except.bind_eq_error {action : Except ε α} {next : α → Except ε β} {error : ε} :
    action >>= next = .error error ↔
      action = .error error ∨ ∃ value, action = .ok value ∧ next value = .error error := by
  cases action <;> simp [bind, Except.bind]

theorem Except.unit_bind_eq_ok {action : Except ε Unit} {next : Unit → Except ε β} {result : β} :
    action >>= next = .ok result ↔ action = .ok () ∧ next () = .ok result := by
  cases action <;> simp [bind, Except.bind]

theorem Except.map_eq_ok {action : Except ε α} {image : α → β} {result : β} :
    action.map image = .ok result ↔ ∃ value, action = .ok value ∧ image value = result := by
  cases action <;> simp [Except.map]

theorem Except.map_eq_error {action : Except ε α} {image : α → β} {error : ε} :
    action.map image = .error error ↔ action = .error error := by
  cases action <;> simp [Except.map]

theorem Except.map_bind (action : Except ε α) (image : α → β) (next : β → Except ε γ) :
    action.map image >>= next = action >>= fun value => next (image value) := by
  cases action <;> rfl

theorem Except.bind_map (action : Except ε α) (next : α → Except ε β) (image : β → γ) :
    (action >>= next).map image = action >>= fun value => (next value).map image := by
  cases action <;> rfl

theorem List.forM_eq_ok {items : List α} {action : α → Except ε Unit} :
    forM items action = .ok () ↔ ∀ item ∈ items, action item = .ok () := by
  induction items with
  | nil => simp [pure, Except.pure]
  | cons item rest ih =>
      rw [List.forM_cons, Except.unit_bind_eq_ok, ih]
      simp only [List.mem_cons, forall_eq_or_imp]

theorem List.exists_of_forM_eq_error {items : List α} {action : α → Except ε Unit} {error : ε}
    (fails : forM items action = .error error) : ∃ item ∈ items, action item = .error error := by
  induction items with
  | nil => cases fails
  | cons item rest ih =>
      rw [List.forM_cons] at fails
      rcases Except.bind_eq_error.1 fails with here | ⟨-, -, later⟩
      · exact ⟨item, .head _, here⟩
      · obtain ⟨other, member, there⟩ := ih later
        exact ⟨other, .tail _ member, there⟩

theorem List.forM_congr {items : List α} {action action' : α → Except ε Unit}
    (same : ∀ item ∈ items, action item = action' item) : forM items action = forM items action' := by
  induction items with
  | nil => rfl
  | cons item rest ih =>
      rw [List.forM_cons, List.forM_cons, same item (.head _),
        ih fun other member => same other (.tail _ member)]

theorem List.mapM_eq_ok {action : α → Except ε β} {items : List α} {results : List β} :
    items.mapM action = .ok results ↔
      List.Forall₂ (fun item result => action item = .ok result) items results := by
  induction items generalizing results with
  | nil =>
      rw [List.mapM_nil, List.forall₂_nil_left_iff]
      exact ⟨fun same => (Except.ok.inj same).symm, fun none => congrArg _ none.symm⟩
  | cons item rest ih =>
      rw [List.mapM_cons, Except.bind_eq_ok, List.forall₂_cons_left_iff]
      simp only [Except.bind_eq_ok, ih]
      constructor
      · rintro ⟨result, acts, others, later, same⟩
        exact ⟨result, others, acts, later, (Except.ok.inj same).symm⟩
      · rintro ⟨result, others, acts, later, rfl⟩
        exact ⟨result, acts, others, later, rfl⟩

theorem List.mapM_eq_some {action : α → Option β} {items : List α} {results : List β} :
    items.mapM action = some results ↔
      List.Forall₂ (fun item result => action item = some result) items results := by
  induction items generalizing results with
  | nil =>
      rw [List.mapM_nil, List.forall₂_nil_left_iff]
      exact ⟨fun same => (Option.some.inj same).symm, fun none => congrArg _ none.symm⟩
  | cons item rest ih =>
      rw [List.mapM_cons, List.forall₂_cons_left_iff]
      simp only [bind, Option.bind_eq_some_iff, ih]
      constructor
      · rintro ⟨result, acts, others, later, same⟩
        exact ⟨result, others, acts, later, (Option.some.inj same).symm⟩
      · rintro ⟨result, others, acts, later, rfl⟩
        exact ⟨result, acts, others, later, rfl⟩

/-- Actions that do nothing do nothing one after the other. -/
theorem List.mapM_eq_pure {monad : Type → Type} [Monad monad] [LawfulMonad monad]
    {action : α → monad α} {items : List α} (each : ∀ item ∈ items, action item = pure item) :
    items.mapM action = pure items := by
  induction items with
  | nil => exact List.mapM_nil
  | cons item rest ih =>
      rw [List.mapM_cons, each item (.head _), ih fun other member => each other (.tail _ member),
        pure_bind, pure_bind]

theorem List.exists_mapM_eq_error {action : α → Except ε β} {items : List α} :
    (∃ error, items.mapM action = .error error) ↔
      ∃ item ∈ items, ∃ error, action item = .error error := by
  induction items with
  | nil => simp [pure, Except.pure]
  | cons item rest ih =>
      rw [List.mapM_cons, List.exists_mem_cons_iff, ← ih]
      cases acts : action item with
      | error error => simp [bind, Except.bind]
      | ok value =>
          cases later : rest.mapM action with
          | error error => simp [bind, Except.bind]
          | ok values => simp [bind, Except.bind, pure, Except.pure]

theorem List.filterM_of_ok {test : α → Except ε Bool} {keep : α → Bool} {items : List α}
    (same : ∀ item ∈ items, test item = .ok (keep item)) :
    items.filterM test = .ok (items.filter keep) := by
  -- The items that are kept are collected in reverse, before those that have been kept already.
  have builds : ∀ before, List.filterAuxM test items before =
      .ok ((items.filter keep).reverse ++ before) := by
    induction items with
    | nil => exact fun before => rfl
    | cons item rest ih =>
        intro before
        rw [List.filterAuxM, same item (.head _), List.filter_cons]
        show List.filterAuxM test rest (bif keep item then item :: before else before) = _
        rw [ih fun other member => same other (.tail _ member)]
        cases keep item <;> simp
  unfold List.filterM
  rw [builds]
  simp [bind, Except.bind, pure, Except.pure]

/-- A filter that succeeds has an answer for every item. -/
theorem List.exists_of_filterM {test : α → Except ε Bool} {items kept : List α}
    (filters : items.filterM test = .ok kept) :
    ∃ keep : α → Bool, (∀ item ∈ items, test item = .ok (keep item)) ∧
      kept = items.filter keep := by
  have answers : ∀ before after, List.filterAuxM test items before = .ok after →
      ∀ item ∈ items, ∃ answer, test item = .ok answer := by
    clear filters
    induction items with
    | nil => exact fun _ _ _ _ member => absurd member List.not_mem_nil
    | cons item rest ih =>
        intro before after steps other member
        rw [List.filterAuxM] at steps
        obtain ⟨answer, first, later⟩ := Except.bind_eq_ok.1 steps
        rcases List.mem_cons.1 member with rfl | member
        · exact ⟨answer, first⟩
        · exact ih _ _ later other member
  obtain ⟨after, steps, -⟩ := Except.bind_eq_ok.1 filters
  have each := answers [] after steps
  have same : ∀ item ∈ items, test item = .ok ((test item).toOption.getD false) := by
    intro item member
    obtain ⟨answer, found⟩ := each item member
    rw [found]
    rfl
  exact ⟨_, same, Except.ok.inj (filters.symm.trans (List.filterM_of_ok same))⟩

end Sequencing

/-! ## Lists that are related element by element -/

section Pairs

variable {ι κ : Type} {related implied : ι → κ → Prop} {lefts : List ι} {rights : List κ}

theorem exists_forall₂ (each : ∀ left ∈ lefts, ∃ right, related left right) :
    ∃ rights, List.Forall₂ related lefts rights := by
  induction lefts with
  | nil => exact ⟨[], .nil⟩
  | cons left rest ih =>
      obtain ⟨right, first⟩ := each left (.head _)
      obtain ⟨rights, others⟩ := ih fun other member => each other (.tail _ member)
      exact ⟨right :: rights, .cons first others⟩

theorem forall₂_of_mem (each : List.Forall₂ related lefts rights)
    (implies : ∀ left ∈ lefts, ∀ right, related left right → implied left right) :
    List.Forall₂ implied lefts rights := by
  induction each with
  | nil => exact .nil
  | cons head _ ih =>
      refine .cons (implies _ (.head _) _ head) (ih ?_)
      exact fun left member => implies left (.tail _ member)

theorem exists_of_mem_left (each : List.Forall₂ related lefts rights) {left : ι}
    (member : left ∈ lefts) : ∃ right ∈ rights, related left right := by
  induction each with
  | nil => cases member
  | cons head _ ih =>
      rcases List.mem_cons.1 member with rfl | member
      · exact ⟨_, .head _, head⟩
      · obtain ⟨right, inside, holds⟩ := ih member
        exact ⟨right, .tail _ inside, holds⟩

theorem exists_of_mem_right (each : List.Forall₂ related lefts rights) {right : κ}
    (member : right ∈ rights) : ∃ left ∈ lefts, related left right :=
  exists_of_mem_left each.flip member

/-- Lists that are related element by element are the two sides of a list of pairs. -/
theorem exists_pairs (each : List.Forall₂ related lefts rights) :
    ∃ pairs : List { pair : ι × κ // related pair.1 pair.2 },
      pairs.map (fun pair => pair.1.1) = lefts ∧ pairs.map (fun pair => pair.1.2) = rights := by
  induction each with
  | nil => exact ⟨[], rfl, rfl⟩
  | @cons left right _ _ head _ ih =>
      obtain ⟨pairs, isLeft, isRight⟩ := ih
      exact ⟨⟨(left, right), head⟩ :: pairs, congrArg (left :: ·) isLeft,
        congrArg (right :: ·) isRight⟩

theorem isEmpty_of_forall₂ (each : List.Forall₂ related lefts rights) :
    rights.isEmpty = lefts.isEmpty := by
  cases each <;> rfl

theorem forall₂_map {ι' κ' : Type} {image : ι → ι'} {image' : κ → κ'} {relatedAfter : ι' → κ' → Prop}
    (each : List.Forall₂ related lefts rights)
    (same : ∀ left right, related left right → relatedAfter (image left) (image' right)) :
    List.Forall₂ relatedAfter (lefts.map image) (rights.map image') := by
  rw [List.forall₂_map_left_iff, List.forall₂_map_right_iff]
  exact each.imp fun left right holds => same left right holds

theorem map_eq_of_forall₂ {τ : Type} {image : ι → τ} {image' : κ → τ}
    (each : List.Forall₂ related lefts rights)
    (same : ∀ left right, related left right → image' right = image left) :
    rights.map image' = lefts.map image := by
  induction each with
  | nil => rfl
  | cons head _ ih => rw [List.map_cons, List.map_cons, same _ _ head, ih]

theorem rel_none_iff {left : Option ι} {right : Option κ} (same : Option.Rel related left right) :
    left = none ↔ right = none := by
  cases same <;> simp

theorem exists_of_rel_some {left : ι} {right : Option κ} (same : Option.Rel related (some left) right) :
    ∃ other, right = some other ∧ related left other := by
  cases same with
  | some holds => exact ⟨_, rfl, holds⟩

theorem rel_getElem? (each : List.Forall₂ related lefts rights) (index : Nat) :
    Option.Rel related lefts[index]? rights[index]? := by
  induction each generalizing index with
  | nil => exact .none
  | cons head _ ih =>
      cases index with
      | zero => exact .some head
      | succ index => exact ih index

/-- What is found in lists that are related element by element is related. -/
theorem rel_find? {test : ι → Bool} {test' : κ → Bool} (each : List.Forall₂ related lefts rights)
    (same : ∀ left right, related left right → test left = test' right) :
    Option.Rel related (lefts.find? test) (rights.find? test') := by
  induction each with
  | nil => exact .none
  | cons head _ ih =>
      rw [List.find?_cons, List.find?_cons, same _ _ head]
      split
      · exact .some head
      · exact ih

end Pairs

end Medley
