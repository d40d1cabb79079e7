import Medley.Proofs.Meaning.Paging

/-!
# Orders and ranges around a collection

The orders and the range of a request can be asked for beside a tree, or be written into operators
around it that are read back when the tree is compiled.  Orders come back as they were written
(`Operator.view_ofOrder`); only a random order, which has no direction in SQL either, comes back without
one.  So the operators around a tree are peeled off as the orders and the range of the request, and both
ways lead to the same query (`State.compile_wrapped`).
-/

namespace Medley

namespace Tree

/-- What is peeled off a tree with orders and a range around it: the outermost range counts, which is
that of the tree only if none is put around it. -/
theorem peel_limited_orderedFrom (mark : Mark) (start length : UInt64) (next : Nat)
    (order : List String) (tree : Node) :
    (limited mark start length (orderedFrom next order tree)).peel = tree.peel.map fun peeled =>
      { peeled with
        orders := (order.map fun entry => keptOrder (readOrder entry)) ++ peeled.orders
        limit := if start = 0 ∧ length = 0 then peeled.limit else some ⟨start, length⟩ } := by
  by_cases whole : start = 0 ∧ length = 0
  · rw [limited, if_pos whole, peel_orderedFrom_eq]
    simp only [if_pos whole]
    rfl
  · rw [peel_limited mark whole, peel_orderedFrom_eq]
    simp only [if_neg whole]
    cases tree.peel <;> rfl

end Tree

/-- What is kept of an order is ordered by alike in SQL. -/
theorem AliasTable.render_keptOrder (table : AliasTable) (order : SortField × Direction) :
    (table.orderBy (keptOrder order).1 (keptOrder order).2).render =
      (table.orderBy order.1 order.2).render := by
  obtain ⟨field, direction⟩ := order
  cases field <;> rfl

namespace CompiledQuery

/-- The SQL of a query depends on its orders by what they are in SQL. -/
theorem sql_orderBy (query : CompiledQuery) {orders : List OrderBy}
    (same : orders.map OrderBy.render = query.orderBy.map OrderBy.render) :
    sql { query with orderBy := orders } = query.sql := by
  have empty : orders.isEmpty = query.orderBy.isEmpty := by
    have lengths := congrArg List.length same
    rw [List.length_map, List.length_map] at lengths
    rw [Bool.eq_iff_iff, List.isEmpty_iff_length_eq_zero, List.isEmpty_iff_length_eq_zero, lengths]
  unfold sql
  rw [same, empty]
  rfl

/-- Orders and a range that are peeled off a tree, and the same asked for beside it, give queries that
differ at most in the direction of random orders. -/
theorem assemble_wrapped {params : QueryParams} (unlimited : params.start = 0 ∧ params.length = 0)
    {peeled : Peeled} (unordered : peeled.orders = []) (order : List String) (start length : UInt64)
    (predicate : Predicate) (table : AliasTable) :
    let inside := assemble params { peeled with
      orders := (order.map fun entry => keptOrder (readOrder entry)) ++ peeled.orders
      limit := if start = 0 ∧ length = 0 then peeled.limit else some ⟨start, length⟩ }
      predicate table
    let beside := assemble { params with order := order ++ params.order, start, length } peeled
      predicate table
    inside = { beside with orderBy := inside.orderBy } ∧ inside.sql = beside.sql := by
  intro inside beside
  have range : inside.limit = beside.limit := by
    show queryRange params _ = queryRange { params with order := _, start, length } peeled.limit
    by_cases whole : start = 0 ∧ length = 0
    · simp [queryRange, whole, unlimited]
    · have cuts : start ≠ 0 ∨ length ≠ 0 := by
        by_cases first : start = 0
        · exact .inr fun last => whole ⟨first, last⟩
        · exact .inl first
      simp [queryRange, whole, cuts, unlimited, Option.filter_some]
  have orders : inside.orderBy.map OrderBy.render = beside.orderBy.map OrderBy.render := by
    simp only [inside, beside, assemble, unordered, List.append_nil, List.nil_append,
      List.map_append, List.map_map, Function.comp_def, AliasTable.render_keptOrder]
  have same : inside = { beside with orderBy := inside.orderBy } :=
    calc inside = { inside with limit := beside.limit } := by rw [← range]
      _ = { beside with orderBy := inside.orderBy } := rfl
  exact ⟨same, by rw [same]; exact sql_orderBy beside orders⟩

end CompiledQuery

/-- Orders and a range put around a tree with no order at its root are those of the request: the tree
with the operators around it, in a request without a range, fails as the tree does in a request with
the orders in front of its own and with the range, or both have the same query but for the direction
that is written at a random order. -/
theorem State.compile_wrapped (state : State) (defaultBase : String) {tree : Node}
    (unordered : ∀ peeled, tree.peel = .ok peeled → peeled.orders = []) (order : List String)
    (start length : UInt64) {params : QueryParams}
    (unlimited : params.start = 0 ∧ params.length = 0) (mark : Mark) (next : Nat) :
    let inside := state.compile defaultBase
      (.limited mark start length (.orderedFrom next order tree)) params
    let beside := state.compile defaultBase tree
      { params with order := order ++ params.order, start, length }
    (∃ error, inside = .error error ∧ beside = .error error) ∨
      ∃ query query', inside = .ok query ∧ beside = .ok query' ∧ query.sql = query'.sql ∧
        query = { query' with orderBy := query.orderBy } := by
  intro inside beside
  have wrapped := Tree.peel_limited_orderedFrom mark start length next order tree
  cases peels : tree.peel with
  | error error =>
      rw [peels] at wrapped
      exact .inl ⟨error, compile_eq_error wrapped _ _, compile_eq_error peels _ _⟩
  | ok peeled =>
      rw [peels] at wrapped
      have root : state.predicate peeled.root = state.predicate tree := state.predicate_root peels
      have predicates : state.predicate (.limited mark start length (.orderedFrom next order tree)) =
          state.predicate tree :=
        (state.predicate_root wrapped).symm.trans root
      have compiles : inside = _ := compile_eq wrapped defaultBase params
      have compiles' : beside = _ := compile_eq peels defaultBase _
      rw [compiles, compiles', predicates]
      cases state.predicate tree { defaultBase } with
      | error error => exact .inl ⟨error, rfl, rfl⟩
      | ok result =>
          obtain ⟨same, sql⟩ := CompiledQuery.assemble_wrapped unlimited (unordered peeled peels) order
            start length result.1 result.2
          exact .inr ⟨_, _, rfl, rfl, sql, same⟩

/-- The orders of a request and a new range around a collection of one medium, with a random order, a
field behind two minus signs and an order of the request itself. -/
theorem State.compile_wrapped_first :
    let order := ["-random", "--title", "id"]
    let params : QueryParams := { fetch := ["artist"], order := ["-year"] }
    (∀ peeled, Sample.first.peel = .ok peeled → peeled.orders = []) ∧
      (params.start = 0 ∧ params.length = 0) ∧
      ∃ query query',
        State.compile {} "url" (.limited ⟨9, none⟩ 2 0 (.orderedFrom 5 order Sample.first)) params =
          .ok query ∧
        State.compile {} "url" Sample.first
          { params with order := order ++ params.order, start := 2, length := 0 } = .ok query' ∧
        query.sql = query'.sql ∧ query = { query' with orderBy := query.orderBy } := by
  intro order params
  have unordered : ∀ peeled, Sample.first.peel = .ok peeled → peeled.orders = [] := by
    intro peeled peels
    obtain rfl := Except.ok.inj ((show Sample.first.peel = .ok ⟨[], _, _⟩ from rfl).symm.trans peels)
    rfl
  have unranged : params.start = 0 ∧ params.length = 0 := ⟨rfl, rfl⟩
  refine ⟨unordered, unranged, ?_⟩
  rcases State.compile_wrapped {} "url" unordered order 2 0 unranged ⟨9, none⟩ 5 with
    ⟨error, -, fails⟩ | agree
  · exact nomatch fails
  · exact agree

end Medley
