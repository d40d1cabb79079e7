import Medley.Proofs.Meaning.Lowering

/-!
# Orders and limits at the root

The order and limit operators at the root of a valid tree can be peeled off (`Tree.exists_peel`), and
what is left has the predicate of the whole tree (`Tree.lower_root`).  What a tree with replaced
references peels to is what it peeled to before and, where its root was replaced, what the tree put
there peels to (`Tree.peel_substitute`).
-/

namespace Medley

namespace Operator

variable {ω : Type} {operator : Operator} {operands : List ω}

theorem oneOperand_eq_ok {operand : ω} :
    operator.oneOperand operands = .ok operand ↔ operands = [operand] := by
  match operands with
  | [] => simp [oneOperand, badArity, fail]
  | [other] => simp [oneOperand]
  | _ :: _ :: _ => simp [oneOperand, badArity, fail]

theorem operands_of_view_order {field : SortField} {direction : Direction} {operand : ω}
    (reads : operator.view operands = .ok (.order field direction operand)) :
    operands = [operand] := by
  unfold view at reads
  split at reads
  all_goals
    simp only [Except.bind_eq_ok, pure, Except.pure, oneOperand_eq_ok] at reads
    try grind [fail, badValue, Except.bind_eq_ok, oneOperand_eq_ok]

theorem operands_of_view_limit {start length : UInt64} {operand : ω}
    (reads : operator.view operands = .ok (.limit start length operand)) :
    operands = [operand] := by
  unfold view at reads
  split at reads
  all_goals
    simp only [Except.bind_eq_ok, pure, Except.pure, oneOperand_eq_ok] at reads
    try grind [fail, badValue, Except.bind_eq_ok, oneOperand_eq_ok]

/-- A limit that can be read is read as one. -/
theorem view_of_limit {view : View ω} (limits : operator.kind = .limit)
    (reads : operator.view operands = .ok view) :
    ∃ start length operand, view = .limit start length operand := by
  rw [Operator.view, limits] at reads
  obtain ⟨operand, -, reads⟩ := Except.bind_eq_ok.1 reads
  obtain ⟨start, -, reads⟩ := Except.bind_eq_ok.1 reads
  obtain ⟨length, -, reads⟩ := Except.bind_eq_ok.1 reads
  exact ⟨start, length, operand, (Except.ok.inj reads).symm⟩

theorem view_of_order {view : View ω} (orders : operator.kind = .order)
    (reads : operator.view operands = .ok view) :
    ∃ field direction operand, view = .order field direction operand := by
  rw [Operator.view, orders] at reads
  obtain ⟨operand, -, reads⟩ := Except.bind_eq_ok.1 reads
  obtain ⟨field, -, reads⟩ := Except.bind_eq_ok.1 reads
  obtain ⟨direction, -, reads⟩ := Except.bind_eq_ok.1 reads
  exact ⟨field, direction, operand, (Except.ok.inj reads).symm⟩

end Operator

/-- What is peeled off together: the orders and limits of an outer tree around an inner one. -/
def Peeled.around (outer inner : Peeled) : Peeled where
  orders := outer.orders ++ inner.orders
  limit := outer.limit.or inner.limit
  root := inner.root

/-- What is peeled off a tree. -/
def Peeled.wrapping (peeled : Peeled) : List (SortField × Direction) × Option Range :=
  (peeled.orders, peeled.limit)

theorem Peeled.around_nothing (root : Node) (action : Except Error Peeled) :
    action.map (Peeled.around ⟨[], none, root⟩) = action := by
  cases action <;> rfl

theorem Peeled.around_around (outer middle : Peeled) (action : Except Error Peeled) :
    (action.map middle.around).map outer.around = action.map (outer.around middle).around := by
  cases action with
  | error error => rfl
  | ok inner =>
      simp only [Except.map, Peeled.around, List.append_assoc]
      cases outer.limit <;> rfl

/-- An operator with one operand reads another in its place alike. -/
theorem Operator.view_singleton {ω : Type} {operator : Operator} {operand : ω} {view : View ω}
    (reads : operator.view [operand] = .ok view) (other : ω) :
    operator.view [other] = .ok (view.map fun _ => other) := by
  have mapped := operator.view_map (fun _ => other) [operand]
  rw [reads] at mapped
  exact mapped

namespace Tree

theorem peel_node (mark : Mark) (operator : Operator) (operands : List Node) :
    peel (.node mark operator operands) =
      operator.view operands >>= fun view =>
        match view with
        | .order field direction operand =>
            (peel operand).map (Peeled.around ⟨[(field, direction)], none, operand⟩)
        | .limit start length operand =>
            (peel operand).map (Peeled.around ⟨[], some ⟨start, length⟩, operand⟩)
        | _ => .ok ⟨[], none, .node mark operator operands⟩ := by
  unfold peel
  rw [fold_node, Operator.view_map]
  simp only [List.map_map, Function.comp_def, List.map_id']
  cases operator.view operands with
  | error error => rfl
  | ok view =>
      cases view with
      | order field direction operand =>
          show (peel operand >>= fun inner => pure (Peeled.around ⟨[(field, direction)], none, operand⟩
            inner)) = (peel operand).map _
          cases peel operand <;> rfl
      | limit start length operand =>
          show (peel operand >>= fun inner => pure (Peeled.around ⟨[], some ⟨start, length⟩, operand⟩
            inner)) = (peel operand).map _
          cases peel operand <;> rfl
      | _ => rfl

/-- A filter has neither keys nor a range around it. -/
theorem peel_of_view {mark : Mark} {operator : Operator} {operand : Node} {test : FilterTest}
    {field : Field} {word : String} {caseSensitive : Bool}
    (reads : operator.view [operand] = .ok (.filter test field word caseSensitive operand)) :
    peel (.node mark operator [operand]) = .ok ⟨[], none, .node mark operator [operand]⟩ := by
  rw [peel_node, reads]
  rfl

/-- A valid tree can be peeled. -/
theorem exists_peel {node : Node} (valid : node.validate = .ok ()) :
    ∃ peeled, node.peel = .ok peeled := by
  induction node using Tree.induction with
  | node mark operator operands ih =>
      obtain ⟨⟨view, reads, -⟩, below⟩ := (validate_node ..).1 valid
      rw [peel_node, reads]
      cases view with
      | order field direction operand =>
          obtain rfl := Operator.operands_of_view_order reads
          obtain ⟨inner, peels⟩ := ih operand (.head _) (below operand (.head _))
          exact ⟨_, congrArg (Except.map (Peeled.around ⟨[(field, direction)], none, operand⟩)) peels⟩
      | limit start length operand =>
          obtain rfl := Operator.operands_of_view_limit reads
          obtain ⟨inner, peels⟩ := ih operand (.head _) (below operand (.head _))
          exact ⟨_, congrArg (Except.map (Peeled.around ⟨[], some ⟨start, length⟩, operand⟩)) peels⟩
      | _ => exact ⟨_, rfl⟩

/-- What is left of a peeled tree has the predicate of the tree. -/
theorem lower_root {node : Node} {peeled : Peeled} (peels : node.peel = .ok peeled)
    (onReference : Option Handle → Address → Compiling Predicate) :
    lower onReference peeled.root = lower onReference node := by
  induction node using Tree.induction generalizing peeled with
  | node mark operator operands ih =>
      rw [peel_node] at peels
      obtain ⟨view, reads, peels⟩ := Except.bind_eq_ok.1 peels
      have whole : lower onReference (.node mark operator operands) =
          View.lower (onReference mark.link) operator
            (view.map fun operand => (operand, lower onReference operand)) := by
        rw [lower_node, Operator.view_map, reads]
        rfl
      cases view with
      | order field direction operand =>
          obtain rfl := Operator.operands_of_view_order reads
          obtain ⟨inner, below, rfl⟩ := Except.map_eq_ok.1 peels
          exact (ih operand (.head _) below).trans whole.symm
      | limit start length operand =>
          obtain rfl := Operator.operands_of_view_limit reads
          obtain ⟨inner, below, rfl⟩ := Except.map_eq_ok.1 peels
          exact (ih operand (.head _) below).trans whole.symm
      | _ =>
          obtain rfl := Except.ok.inj peels
          rfl

theorem peel_reference {mark : Mark} {operator : Operator} {operands : List Node}
    (reference : operator.kind = .reference) (valid : validate (.node mark operator operands) = .ok ()) :
    peel (.node mark operator operands) = .ok ⟨[], none, .node mark operator operands⟩ := by
  obtain ⟨⟨view, reads, -⟩, -⟩ := (validate_node ..).1 valid
  obtain rfl := Operator.operands_eq_nil_of_reference reads reference
  obtain ⟨name, -, -, rfl⟩ := (Operator.view_reference_eq_ok reference).1 reads
  rw [peel_node, reads]
  rfl

/-- What is left of a peeled tree has nothing more to peel off, whatever its operands are. -/
theorem peel_root {node put : Node} {peeled : Peeled} (peels : node.peel = .ok peeled)
    (same : put.operator = peeled.root.operator)
    (length : put.operands.length = peeled.root.operands.length) :
    put.peel = .ok ⟨[], none, put⟩ := by
  induction node using Tree.induction generalizing peeled with
  | node mark operator operands ih =>
      rw [peel_node] at peels
      obtain ⟨view, reads, peels⟩ := Except.bind_eq_ok.1 peels
      cases view with
      | order field direction operand =>
          obtain rfl := Operator.operands_of_view_order reads
          obtain ⟨inner, below, rfl⟩ := Except.map_eq_ok.1 peels
          exact ih operand (.head _) below same length
      | limit start count operand =>
          obtain rfl := Operator.operands_of_view_limit reads
          obtain ⟨inner, below, rfl⟩ := Except.map_eq_ok.1 peels
          exact ih operand (.head _) below same length
      | _ =>
          -- The form of the view depends on the operator and the number of operands alone.
          obtain rfl := Except.ok.inj peels
          obtain ⟨mark', operator', operands'⟩ := put
          obtain rfl : operator' = operator := same
          have units : operands'.map (fun _ => ()) = operands.map fun _ => () := by
            rw [List.map_const', List.map_const']
            exact congrArg (List.replicate · ()) length
          have views := operator'.view_map (fun _ => ()) operands'
          rw [units, Operator.view_map, reads] at views
          obtain ⟨view', reads', form⟩ := Except.map_eq_ok.1 views.symm
          rw [peel_node, reads']
          cases view' <;> first | rfl | cases form

/-- Where a reference at the root was replaced, the orders and limits of the tree put there come to
light behind those of the tree. -/
theorem peel_substitute {image : Operator → Option Shape} {node node' : Node} {peeled : Peeled}
    (onReferences : ∀ operator, operator.kind ≠ .reference → image operator = none)
    (shapes : node'.shape = node.substitute image) (peels : node.peel = .ok peeled) :
    ∃ put : Node, put.shape = peeled.root.substitute image ∧
      node'.peel = put.peel.map peeled.around := by
  induction node using Tree.induction generalizing node' peeled with
  | node mark operator operands ih =>
      rw [peel_node] at peels
      obtain ⟨view, reads, peels⟩ := Except.bind_eq_ok.1 peels
      -- Below an operator with one operand the replacement goes on.
      have single : ∀ operand, operands = [operand] →
          ∃ mark' operand', node' = .node mark' operator [operand'] ∧
            operand'.shape = operand.substitute image := by
        rintro operand rfl
        have other : operator.kind ≠ .reference := fun reference =>
          nomatch Operator.operands_eq_nil_of_reference reads reference
        obtain ⟨mark', operator', operands'⟩ := node'
        rw [shape_node, substitute_node, onReferences operator other, Option.getD_none,
          Tree.node.injEq] at shapes
        obtain ⟨-, rfl, shapes⟩ := shapes
        obtain ⟨operand', rfl, same⟩ := List.map_eq_singleton_iff.1 shapes
        exact ⟨mark', operand', rfl, same⟩
      cases view with
      | order field direction operand =>
          obtain rfl := Operator.operands_of_view_order reads
          obtain ⟨mark', operand', rfl, same⟩ := single operand rfl
          obtain ⟨inner, below, rfl⟩ := Except.map_eq_ok.1 peels
          obtain ⟨put, shape, peels⟩ := ih operand (.head _) same below
          refine ⟨put, shape, ?_⟩
          rw [peel_node, Operator.view_singleton reads]
          show (peel operand').map _ = _
          rw [peels, Peeled.around_around]
          rfl
      | limit start length operand =>
          obtain rfl := Operator.operands_of_view_limit reads
          obtain ⟨mark', operand', rfl, same⟩ := single operand rfl
          obtain ⟨inner, below, rfl⟩ := Except.map_eq_ok.1 peels
          obtain ⟨put, shape, peels⟩ := ih operand (.head _) same below
          refine ⟨put, shape, ?_⟩
          rw [peel_node, Operator.view_singleton reads]
          show (peel operand').map _ = _
          rw [peels, Peeled.around_around]
          rfl
      | _ =>
          obtain rfl := Except.ok.inj peels
          exact ⟨node', shapes, (Peeled.around_nothing _ _).symm⟩

/-- Where the root stays, so do the orders and limits around it. -/
theorem peel_kept {image : Operator → Option Shape} {node node' : Node} {peeled : Peeled}
    (onReferences : ∀ operator, operator.kind ≠ .reference → image operator = none)
    (shapes : node'.shape = node.substitute image) (peels : node.peel = .ok peeled)
    (stays : image peeled.root.operator = none) :
    ∃ root, node'.peel = .ok ⟨peeled.orders, peeled.limit, root⟩ := by
  obtain ⟨put, same, around⟩ := peel_substitute onReferences shapes peels
  cases root : peeled.root with
  | node mark operator operands =>
      rw [root, operator_node] at stays
      rw [root, substitute_node, stays, Option.getD_none] at same
      obtain ⟨mark', operator', operands'⟩ := put
      rw [shape_node, Tree.node.injEq] at same
      obtain ⟨-, rfl, alike⟩ := same
      have length : operands'.length = operands.length := by
        simpa using congrArg List.length alike
      have plain : peel (.node mark' operator' operands') =
          .ok ⟨[], none, .node mark' operator' operands'⟩ :=
        peel_root peels (by rw [root]; rfl) (by rw [root]; exact length)
      rw [plain] at around
      exact ⟨.node mark' operator' operands', by simpa [Except.map, Peeled.around] using around⟩

theorem peel_of_shape_eq {node node' : Node} {peeled : Peeled} (same : node'.shape = node.shape)
    (peels : node.peel = .ok peeled) : ∃ root, node'.peel = .ok ⟨peeled.orders, peeled.limit, root⟩ :=
  peel_kept (fun _ _ => rfl) (same.trans (substitute_none node).symm) peels rfl

/-- The same is peeled off trees of one shape, and they fail alike. -/
theorem peel_wrapping {node node' : Node} (same : node'.shape = node.shape) :
    node'.peel.map Peeled.wrapping = node.peel.map Peeled.wrapping := by
  induction node using Tree.induction generalizing node' with
  | node mark operator operands ih =>
      obtain ⟨mark', operator', operands'⟩ := node'
      rw [shape_node, shape_node, Tree.node.injEq] at same
      obtain ⟨-, rfl, shapes⟩ := same
      have each : ∀ operand ∈ operands, ∀ operand' : Node, operand'.shape = operand.shape →
          operand'.peel.map Peeled.wrapping = operand.peel.map Peeled.wrapping :=
        fun operand member operand' => ih operand member
      obtain ⟨pairs, rfl, rfl⟩ := exists_alike_pairs shapes each
      have around : ∀ {outer outer' : Peeled} {left right : Except Error Peeled},
          outer'.wrapping = outer.wrapping →
          left.map Peeled.wrapping = right.map Peeled.wrapping →
          (left.map outer'.around).map Peeled.wrapping =
            (right.map outer.around).map Peeled.wrapping := by
        rintro outer outer' (error | left) (error' | right) outside inside
        · exact inside
        · cases inside
        · cases inside
        · injection inside with inside
          simp only [Peeled.wrapping, Prod.mk.injEq] at outside inside
          simp only [Except.map, Peeled.wrapping, Peeled.around, outside, inside]
      rw [peel_node, peel_node, Operator.view_map, Operator.view_map]
      cases operator'.view pairs with
      | error error => rfl
      | ok view =>
          cases view with
          | order field direction pair => exact around rfl pair.2
          | limit start length pair => exact around rfl pair.2
          | _ => rfl

end Tree

/-- The query of a collection from what was peeled off it, its predicate and the fields registered
for that. -/
def CompiledQuery.assemble (params : QueryParams) (peeled : Peeled) (predicate : Predicate)
    (table : AliasTable) : CompiledQuery :=
  let table := ((table.registerAll params.group).registerAll params.fetch).withBase
  { predicate
    conditions := predicate.render
    aliases := table.aliases
    baseField := table.base.getD ""
    fetch := params.fetch.map fun field => { field, column := table.column field }
    groupBy := params.group.map table.column
    orderBy := (peeled.orders ++ params.order.map readOrder).map fun (field, direction) =>
      table.orderBy field direction
    limit := queryRange params peeled.limit }

namespace CompiledQuery

variable {params : QueryParams} {outer outer' : Peeled}

theorem assemble_eq_of_peeled (orders : outer'.orders = outer.orders)
    (range : queryRange params outer'.limit = queryRange params outer.limit)
    (predicate predicate' : Predicate) (table : AliasTable) :
    assemble params outer' predicate' table =
      { assemble params outer predicate table with
        predicate := predicate', conditions := predicate'.render } := by
  simp only [assemble, orders, range]

/-- More orders or another range show in the query. -/
theorem assemble_ne_of_peeled {more : List (SortField × Direction)}
    (orders : outer'.orders = outer.orders ++ more)
    (differs : more ≠ [] ∨ queryRange params outer'.limit ≠ queryRange params outer.limit)
    (predicate predicate' : Predicate) (table : AliasTable) :
    (assemble params outer predicate table).orderBy ≠
        (assemble params outer' predicate' table).orderBy ∨
      (assemble params outer predicate table).limit ≠
        (assemble params outer' predicate' table).limit := by
  rcases differs with added | range
  · refine .inl fun same => added ?_
    have lengths := congrArg List.length same
    simp only [assemble, orders, List.length_map, List.length_append] at lengths
    exact List.length_eq_zero_iff.1 (by omega)
  · exact .inr fun same => range same.symm

end CompiledQuery

/-- What is left of a tree has its predicate. -/
theorem State.predicate_root (state : State) {tree : Node} {peeled : Peeled}
    (peels : tree.peel = .ok peeled) : state.predicate peeled.root = state.predicate tree := by
  simp only [State.predicate, State.predicateWithin, Tree.lower_root peels]

/-- A tree is compiled from its own predicate, for all that is peeled off first. -/
theorem State.compile_eq {state : State} {tree : Node} {peeled : Peeled}
    (peels : tree.peel = .ok peeled) (defaultBase : String) (params : QueryParams) :
    state.compile defaultBase tree params =
      (state.predicate tree { defaultBase }).map fun result =>
        CompiledQuery.assemble params peeled result.1 result.2 := by
  unfold State.compile
  rw [peels]
  show (state.predicate peeled.root { defaultBase } >>= _) = _
  rw [state.predicate_root peels]
  cases state.predicate tree { defaultBase } <;> rfl

theorem State.compile_eq_error {state : State} {tree : Node} {error : Error}
    (fails : tree.peel = .error error) (defaultBase : String) (params : QueryParams) :
    state.compile defaultBase tree params = .error error := by
  unfold State.compile
  rw [fails]
  rfl

/-- Trees of one shape with one predicate are compiled to the same query, or fail alike. -/
theorem State.compile_congr {state after : State} {tree tree' : Node} (same : tree'.shape = tree.shape)
    (predicates : after.predicate tree' = state.predicate tree) (defaultBase : String)
    (params : QueryParams) :
    after.compile defaultBase tree' params = state.compile defaultBase tree params := by
  have wrapping := Tree.peel_wrapping same
  cases peels : tree.peel with
  | error error =>
      rw [peels] at wrapping
      rw [compile_eq_error peels, compile_eq_error (Except.map_eq_error.1 wrapping)]
  | ok peeled =>
      rw [peels] at wrapping
      obtain ⟨peeled', peels', wrapping⟩ := Except.map_eq_ok.1 wrapping
      simp only [Peeled.wrapping, Prod.mk.injEq] at wrapping
      rw [State.compile_eq peels, State.compile_eq peels', predicates]
      simp only [CompiledQuery.assemble, wrapping]

end Medley
