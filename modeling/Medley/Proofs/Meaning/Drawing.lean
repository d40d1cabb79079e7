import Medley.Media.Library
import Medley.Proofs.Meaning.Peeling

/-!
# What a draw decides

Media that are asked for in a random order are shuffled before they are sorted.  So a draw decides about
the order of what a query finds and, where that is cut to a range, about what is left of it.  It decides
neither whether the query has an answer nor which media are found without a range
(`CompiledQuery.find_perm`), and nothing at all unless an order of the request or at the root of the tree
is random (`CompiledQuery.find_of_draws`, `State.shuffles_of_compile`).
-/

namespace Medley

theorem Range.slice_sublist {α : Type} (range : Range) (elements : List α) :
    (range.slice elements).Sublist elements := by
  rw [slice]
  split
  · exact List.drop_sublist ..
  · exact (List.take_sublist ..).trans (List.drop_sublist ..)

namespace CompiledQuery

variable {query query' : CompiledQuery} {draw draw' : Draw} {media found : List Medium}

/-! ## The steps of a query -/

theorem grouped_of_ungrouped (ungrouped : query.groupBy = []) (selected : List Medium) :
    query.grouped selected = selected := by
  rw [grouped, ungrouped, if_pos List.isEmpty_nil]

theorem sorted_perm (query : CompiledQuery) (draw : Draw) (media : List Medium) :
    (query.sorted draw media).Perm media := by
  have shuffled : (if query.shuffles then draw.arrange media else media).Perm media := by
    split
    · exact draw.perm media
    · exact .refl media
  exact (List.mergeSort_perm _ _).trans shuffled

theorem mem_sorted {medium : Medium} : medium ∈ query.sorted draw media ↔ medium ∈ media :=
  (query.sorted_perm draw media).mem_iff

theorem sorted_of_settled (settled : query.shuffles = false) (draw : Draw) (media : List Medium) :
    query.sorted draw media = OrderBy.sort query.orderBy media := by
  rw [sorted, settled, if_neg Bool.false_ne_true]

/-- Media that are asked for in no order stay in that of their ids. -/
theorem sorted_of_unordered (unordered : query.orderBy = []) (draw : Draw) (media : List Medium) :
    query.sorted draw media = media := by
  have settled : query.shuffles = false := by rw [shuffles, unordered, List.any_nil]
  rw [sorted_of_settled settled, unordered, OrderBy.sort,
    List.mergeSort_of_pairwise (List.pairwise_iff_getElem.2 fun _ _ _ _ _ => rfl)]

/-- Queries sort media alike if both shuffle them or neither does and their keys compare alike. -/
theorem sorted_congr (shuffles : query'.shuffles = query.shuffles)
    (orders : OrderBy.compareAll query'.orderBy = OrderBy.compareAll query.orderBy) :
    query'.sorted = query.sorted := by
  funext draw media
  rw [sorted, sorted, OrderBy.sort, OrderBy.sort, shuffles, orders]

theorem find_limit (query : CompiledQuery) (limit : Option Range) (draw : Draw) (media : List Medium) :
    find { query with limit } draw media =
      (find { query with limit := none } draw media).map fun found =>
        limit.elim found (·.slice found) := by
  rw [find, find, Except.bind_map]
  rfl

theorem cut_of_unlimited (unlimited : query.limit = none) (media : List Medium) :
    query.cut media = media := by
  rw [cut, unlimited, Option.elim_none]

theorem cut_sublist (query : CompiledQuery) (media : List Medium) :
    (query.cut media).Sublist media := by
  rw [cut]
  cases query.limit with
  | none => exact .refl media
  | some range => exact range.slice_sublist media

theorem find_eq (query : CompiledQuery) (draw : Draw) (media : List Medium) :
    query.find draw media = (media.filterM query.selects).map fun selected =>
      query.cut (query.sorted draw (query.grouped selected)) := by
  rw [find]
  cases media.filterM query.selects <;> rfl

/-- A query that does not group finds a range of the media that it selects, in its order. -/
theorem find_eq_ok {keep : Medium → Bool} (ungrouped : query.groupBy = [])
    (selects : ∀ medium ∈ media, query.selects medium = .ok (keep medium)) (draw : Draw) :
    query.find draw media = .ok (query.cut (query.sorted draw (media.filter keep))) := by
  rw [find_eq, List.filterM_of_ok selects]
  show Except.ok (query.cut (query.sorted draw (query.grouped _))) = _
  rw [grouped_of_ungrouped ungrouped]

theorem find_of_unordered {keep : Medium → Bool} (ungrouped : query.groupBy = [])
    (unordered : query.orderBy = [])
    (selects : ∀ medium ∈ media, query.selects medium = .ok (keep medium)) (draw : Draw) :
    query.find draw media = .ok (query.cut (media.filter keep)) := by
  rw [find_eq_ok ungrouped selects, sorted_of_unordered unordered]

/-! ## Two draws -/

/-- A query that has an answer under one draw has one under every draw. -/
theorem exists_find (finds : query.find draw media = .ok found) :
    ∃ all : Draw → List Medium, ∀ draw, query.find draw media = .ok (all draw) := by
  rw [find_eq] at finds
  obtain ⟨selected, filters, -⟩ := Except.map_eq_ok.1 finds
  exact ⟨fun draw => query.cut (query.sorted draw (query.grouped selected)),
    fun draw => by rw [find_eq, filters]; rfl⟩

/-- Two draws lead to the same media if they are one or nothing is shuffled. -/
theorem find_of_draws (same : query.shuffles = true → draw = draw') (media : List Medium) :
    query.find draw media = query.find draw' media := by
  by_cases shuffled : query.shuffles = true
  · rw [same shuffled]
  · simp only [find_eq, sorted_of_settled (Bool.not_eq_true _ ▸ shuffled)]

/-- Without a range, another draw leads to the same media in another order. -/
theorem find_perm {found' : List Medium} (unlimited : query.limit = none)
    (finds : query.find draw media = .ok found) (finds' : query.find draw' media = .ok found') :
    found'.Perm found := by
  rw [find_eq] at finds finds'
  obtain ⟨selected, filters, rfl⟩ := Except.map_eq_ok.1 finds
  rw [filters] at finds'
  obtain rfl := Except.ok.inj finds'
  simp only [cut_of_unlimited unlimited]
  exact (query.sorted_perm draw' _).trans (query.sorted_perm draw _).symm

end CompiledQuery

/-- Two draws lead to the same rows if they are one or nothing is shuffled. -/
theorem MemoryLibrary.execute_of_draws (library : MemoryLibrary) {query : CompiledQuery}
    {draw draw' : Draw} (same : query.shuffles = true → draw = draw') :
    library.execute draw query = library.execute draw' query := by
  rw [execute, execute, query.find_of_draws same]

/-! ## Requests for a random order -/

/-- Whether a tree that is asked for in some orders comes in a random one: one of these is random, or one
at the root of the tree. -/
def Tree.Shuffles (tree : Node) (entries : List String) : Prop :=
  ∃ peeled, tree.peel = .ok peeled ∧
    ∃ order ∈ peeled.orders ++ entries.map readOrder, order.1 = .random

theorem Tree.shuffles_iff {tree : Node} {peeled : Peeled} (peels : tree.peel = .ok peeled)
    {entries : List String} :
    tree.Shuffles entries ↔ ∃ order ∈ peeled.orders ++ entries.map readOrder, order.1 = .random := by
  rw [Shuffles, peels]
  simp only [Except.ok.injEq, exists_eq_left']

/-- A query is as random as its request and what was peeled off the tree. -/
theorem CompiledQuery.shuffles_assemble {params : QueryParams} {peeled : Peeled} {predicate : Predicate}
    {table : AliasTable} :
    (CompiledQuery.assemble params peeled predicate table).shuffles = true ↔
      ∃ order ∈ peeled.orders ++ params.order.map readOrder, order.1 = .random := by
  have random : ∀ (table : AliasTable) (order : SortField × Direction),
      (table.orderBy order.1 order.2).key = .random ↔ order.1 = .random := by
    intro table order
    obtain ⟨field, direction⟩ := order
    cases field <;> simp [AliasTable.orderBy]
  simp only [CompiledQuery.assemble, shuffles, List.any_eq_true, List.mem_map, exists_exists_and_eq_and,
    decide_eq_true_eq, random]

/-- A query shuffles media if its request or the root of its tree asks for a random order. -/
theorem State.shuffles_of_compile {state : State} {defaultBase : String} {tree : Node}
    {params : QueryParams} {query : CompiledQuery}
    (compiled : state.compile defaultBase tree params = .ok query) :
    query.shuffles = true ↔ tree.Shuffles params.order := by
  obtain ⟨peeled, peels, compiled⟩ := Except.bind_eq_ok.1 compiled
  obtain ⟨result, -, compiled⟩ := Except.bind_eq_ok.1 compiled
  obtain rfl := Except.ok.inj compiled
  rw [Tree.shuffles_iff peels]
  exact CompiledQuery.shuffles_assemble

end Medley
