import Medley.Proofs.Meaning.Asking
import Medley.Proofs.Meaning.Commutation

/-!
# Pages of a collection

A request for a range of ids puts a limit around the tree, which is read back when the tree is compiled
and takes the place of the limits at its root.  So a page is cut from the ids of the tree without those
limits (`Registry.queryIds_slice`): a tree that has none is paged as it is, and a request without bounds
leaves the outermost of those that are there.  The ids themselves come in an order that is drawn anew for
each request, if a random one is asked for.
-/

namespace Medley

open Compiling

/-- An order as an operator keeps it: a random order has no direction. -/
def keptOrder : SortField × Direction → SortField × Direction
  | (.random, _) => (.random, .ascending)
  | order => order

namespace Operator

theorem kind_orderEntry (entry : String) : (orderEntry entry).kind = .order := by
  unfold orderEntry
  split
  split <;> rfl

/-- The operator of an order that a request asks for. -/
def ofOrder : SortField × Direction → Operator
  | (.random, _) => withAttributes .order [(Key.type, "random")]
  | (.id, direction) => withAttributes .order
      [(Key.type, "id"), (Key.direction, if direction = .descending then "DESC" else "ASC")]
  | (.property field, direction) => withAttributes .order
      [(Key.type, "value"), (Key.field, field),
        (Key.direction, if direction = .descending then "DESC" else "ASC")]

/-- An order entry is written as what it is read as. -/
theorem orderEntry_eq (entry : String) : orderEntry entry = ofOrder (readOrder entry) := by
  unfold readOrder orderEntry
  split
  next direction key signs =>
    split at signs
    · next rest minus =>
      cases signs
      simp only
      grind [ofOrder]
    · next plus => grind [ofOrder]

/-- An order comes back from the operator that it is written to, whatever its field is called. -/
theorem view_ofOrder {ω : Type} (order : SortField × Direction) (operand : ω) :
    (ofOrder order).view [operand] =
      .ok (.order (keptOrder order).1 (keptOrder order).2 operand) := by
  obtain ⟨field, direction⟩ := order
  cases field with
  | id => cases direction <;> rfl
  | random => rfl
  | property field =>
      have keys : Key.type ≠ Key.direction ∧ Key.type ≠ Key.field ∧ Key.field ≠ Key.direction := by
        decide
      have written : ∀ key, (ofOrder (.property field, direction)).attributes.get? key =
          if key = Key.direction then some (if direction = .descending then "DESC" else "ASC")
          else if key = Key.field then some field
          else if key = Key.type then some "value" else none := by
        simp [ofOrder, withAttributes, SortedMap.ofList, SortedMap.get?_insert]
      have sorts : (ofOrder (.property field, direction)).sortField = .ok (.property field) := by
        simp [sortField, require, written, keys]
        rfl
      have directs : (ofOrder (.property field, direction)).sortDirection = .ok direction := by
        unfold sortDirection
        rw [written, if_pos rfl]
        cases direction <;> rfl
      show ((ofOrder _).sortField >>= fun field => (ofOrder _).sortDirection >>= fun direction =>
        pure (View.order field direction operand)) = _
      rw [sorts, directs]
      rfl

/-- The bounds of a range come back from the attributes that they are written to. -/
theorem view_limitRange {ω : Type} (start length : UInt64) (operand : ω) :
    (limitRange start length).view [operand] = .ok (.limit start length operand) := by
  have keys : Key.start ≠ Key.length := by decide
  have counts : (limitRange start length).count Key.start = .ok start ∧
      (limitRange start length).count Key.length = .ok length := by
    unfold count limitRange withAttributes
    by_cases first : start = 0 <;> by_cases last : length = 0 <;>
      simp [first, last, SortedMap.ofList, SortedMap.get?_insert, keys, keys.symm]
  have kind : (limitRange start length).kind = .limit := rfl
  rw [view, kind]
  simp only [oneOperand, counts]
  rfl

end Operator

namespace Tree

/-- The tree without the limits among the orders and limits at its root. -/
def unlimited {α : Type} : Tree α → Tree α :=
  fold fun mark operator operands =>
    match operator.kind, operands with
    | .limit, [operand] => operand.2
    | .order, [operand] => .node mark operator [operand.2]
    | _, _ => .node mark operator (operands.map Prod.fst)

theorem unlimited_limit {α : Type} {mark : α} {operator : Operator} {operand : Tree α}
    (limits : operator.kind = .limit) :
    unlimited (.node mark operator [operand]) = operand.unlimited := by
  rw [unlimited, fold_node, limits]
  rfl

theorem unlimited_order {α : Type} {mark : α} {operator : Operator} {operand : Tree α}
    (orders : operator.kind = .order) :
    unlimited (.node mark operator [operand]) = .node mark operator [operand.unlimited] := by
  rw [unlimited, fold_node, orders]
  rfl

theorem unlimited_of_kind {α : Type} {mark : α} {operator : Operator} {operands : List (Tree α)}
    (unlimits : operator.kind ≠ .limit) (unordered : operator.kind ≠ .order) :
    unlimited (.node mark operator operands) = .node mark operator operands := by
  rw [unlimited, fold_node]
  split
  · next limits _ => exact absurd limits unlimits
  · next orders _ => exact absurd orders unordered
  · rw [List.map_map]
    exact congrArg _ (List.map_id' _)

/-- The root of a tree that passes a check is an order, a limit or an operator of another kind. -/
theorem check_cases {α : Type} {onReference : α → Address → Except Error Unit} {mark : α}
    {operator : Operator} {operands : List (Tree α)}
    (passes : check onReference (.node mark operator operands) = .ok ()) :
    (∃ operand, operands = [operand] ∧ (operator.kind = .limit ∨ operator.kind = .order)) ∨
      operator.kind ≠ .limit ∧ operator.kind ≠ .order := by
  obtain ⟨⟨view, reads, -⟩, -⟩ := (check_node ..).1 passes
  by_cases limits : operator.kind = .limit
  · obtain ⟨start, length, operand, rfl⟩ := Operator.view_of_limit limits reads
    exact .inl ⟨operand, Operator.operands_of_view_limit reads, .inl limits⟩
  by_cases orders : operator.kind = .order
  · obtain ⟨field, direction, operand, rfl⟩ := Operator.view_of_order orders reads
    exact .inl ⟨operand, Operator.operands_of_view_order reads, .inr orders⟩
  exact .inr ⟨limits, orders⟩

/-- A tree passes a check without its limits if it does with them. -/
theorem check_unlimited {α : Type} {onReference : α → Address → Except Error Unit} {tree : Tree α}
    (passes : tree.check onReference = .ok ()) : tree.unlimited.check onReference = .ok () := by
  induction tree using Tree.induction with
  | node mark operator operands ih =>
      obtain ⟨⟨view, reads, refers⟩, below⟩ := (check_node ..).1 passes
      rcases check_cases passes with ⟨operand, rfl, limits | orders⟩ | ⟨unlimits, unordered⟩
      · rw [unlimited_limit limits]
        exact ih operand (.head _) (below operand (.head _))
      · rw [unlimited_order orders, check_node, Operator.view_singleton reads]
        refine ⟨⟨_, rfl, (View.refers_map ..).2 refers⟩, fun other member => ?_⟩
        obtain rfl := List.mem_singleton.1 member
        exact ih operand (.head _) (below operand (.head _))
      · rw [unlimited_of_kind unlimits unordered]
        exact passes

/-- All that is missing from what is peeled off is the limit. -/
theorem peel_unlimited {tree : Node} {peeled : Peeled} (peels : tree.peel = .ok peeled) :
    tree.unlimited.peel = .ok { peeled with limit := none } := by
  induction tree using Tree.induction generalizing peeled with
  | node mark operator operands ih =>
      have whole := peels
      rw [peel_node] at peels
      obtain ⟨view, reads, peels⟩ := Except.bind_eq_ok.1 peels
      cases view with
      | order field direction operand =>
          obtain rfl := Operator.operands_of_view_order reads
          obtain ⟨inner, below, rfl⟩ := Except.map_eq_ok.1 peels
          rw [unlimited_order (Operator.kind_of_view reads rfl), peel_node,
            Operator.view_singleton reads]
          show (Tree.peel operand.unlimited).map _ = _
          rw [ih operand (.head _) below]
          rfl
      | limit start length operand =>
          obtain rfl := Operator.operands_of_view_limit reads
          obtain ⟨inner, below, rfl⟩ := Except.map_eq_ok.1 peels
          have inside := ih operand (.head _) below
          rw [unlimited_limit (Operator.kind_of_view reads rfl)]
          exact inside
      | _ =>
          obtain rfl := Except.ok.inj peels
          have unlimits : operator.kind ≠ .limit := fun limits => by
            obtain ⟨_, _, _, same⟩ := Operator.view_of_limit limits reads
            cases same
          have unordered : operator.kind ≠ .order := fun orders => by
            obtain ⟨_, _, _, same⟩ := Operator.view_of_order orders reads
            cases same
          rw [unlimited_of_kind unlimits unordered]
          exact whole

theorem unlimited_orderedFrom (next : Nat) (order : List String) (tree : Node) :
    (orderedFrom next order tree).unlimited = orderedFrom next order tree.unlimited := by
  induction order generalizing next with
  | nil => rfl
  | cons entry rest ih =>
      rw [orderedFrom, orderedFrom, ordered, ordered, unary, unary,
        unlimited_order (Operator.kind_orderEntry entry), ih]

/-- The orders around a tree are peeled off in front of those at its root. -/
theorem peel_orderedFrom_eq (next : Nat) (order : List String) (tree : Node) :
    (orderedFrom next order tree).peel =
      tree.peel.map (Peeled.around ⟨order.map fun entry => keptOrder (readOrder entry), none, tree⟩) := by
  induction order generalizing next with
  | nil => exact (Peeled.around_nothing tree tree.peel).symm
  | cons entry rest ih =>
      rw [orderedFrom, ordered, unary, peel_node, Operator.orderEntry_eq, Operator.view_ofOrder]
      show (peel (orderedFrom (next + 1) rest tree)).map _ = _
      rw [ih, Peeled.around_around]
      rfl

/-- The orders around a tree are asked for like those of a request. -/
theorem shuffles_orderedFrom {next : Nat} {order entries : List String} {tree : Node} :
    (orderedFrom next order tree).Shuffles entries ↔ tree.Shuffles (order ++ entries) := by
  have kept (order : SortField × Direction) : (keptOrder order).1 = order.1 := by
    obtain ⟨field, direction⟩ := order
    cases field <;> rfl
  unfold Shuffles
  rw [peel_orderedFrom_eq]
  cases tree.peel with
  | error error => simp only [Except.map, reduceCtorEq, false_and, exists_false]
  | ok peeled =>
      simp only [Except.map, Except.ok.injEq, exists_eq_left', Peeled.around, List.mem_append,
        List.mem_map, List.map_append, or_and_right, exists_or, exists_exists_and_eq_and, kept]
      rw [or_assoc, or_left_comm]

theorem shuffles_unlimited {tree : Node} {peeled : Peeled} (peels : tree.peel = .ok peeled)
    {entries : List String} : tree.unlimited.Shuffles entries ↔ tree.Shuffles entries := by
  rw [shuffles_iff peels, shuffles_iff (peel_unlimited peels)]

/-- A limit around a tree takes the place of those at its root. -/
theorem peel_limited (mark : Mark) {start length : UInt64} (cuts : ¬ (start = 0 ∧ length = 0))
    (tree : Node) :
    (limited mark start length tree).peel =
      tree.peel.map fun peeled => { peeled with limit := some ⟨start, length⟩ } := by
  rw [limited, if_neg cuts, unary, peel_node, Operator.view_limitRange]
  rfl

end Tree

/-- Trees of which the same is peeled off, but for the limit, have queries that differ in the range. -/
theorem State.compile_relimited (state : State) {tree tree' : Node} {peeled : Peeled}
    {limit : Option Range} (peels : tree.peel = .ok peeled)
    (peels' : tree'.peel = .ok { peeled with limit }) (defaultBase : String) (params : QueryParams) :
    state.compile defaultBase tree' params =
      (state.compile defaultBase tree params).map fun query =>
        { query with limit := queryRange params limit } := by
  have root : state.predicate peeled.root = state.predicate tree := state.predicate_root peels
  have predicates : state.predicate tree' = state.predicate tree :=
    (state.predicate_root peels').symm.trans root
  rw [State.compile_eq peels, State.compile_eq peels', predicates]
  cases state.predicate tree { defaultBase } <;> rfl

theorem Range.slice_map {α β : Type} (image : α → β) (range : Range) (elements : List α) :
    range.slice (elements.map image) = (range.slice elements).map image := by
  unfold Range.slice
  simp only [apply_ite (List.map image), List.map_drop, List.map_take]

/-- A range that is left out for being empty of bounds cuts nothing. -/
theorem queryRange_elim {α : Type} {params : QueryParams} (unlimited : params.start = 0 ∧ params.length = 0)
    (limit : Option Range) (elements : List α) :
    (queryRange params limit).elim elements (·.slice elements) =
      (limit.getD ⟨0, 0⟩).slice elements := by
  rw [queryRange, if_neg (by simp [unlimited])]
  cases limit with
  | none => rfl
  | some range =>
      obtain ⟨start, length⟩ := range
      rw [Option.filter_some]
      split
      · rfl
      · next zero =>
        obtain ⟨rfl, rfl⟩ : start = 0 ∧ length = 0 := by simpa using zero
        rfl

/-- The rows of a query hold the fields that it fetches. -/
theorem State.row_of_compile {state : State} {defaultBase : String} {tree : Node} {params : QueryParams}
    {query : CompiledQuery} (compiled : state.compile defaultBase tree params = .ok query)
    (medium : Medium) : query.row medium = medium.row params.fetch := by
  obtain ⟨peeled, peels, compiled⟩ := Except.bind_eq_ok.1 compiled
  obtain ⟨⟨predicate, table⟩, lowered, compiled⟩ := Except.bind_eq_ok.1 compiled
  obtain ⟨rfl, -⟩ := state.lowers_predicate peeled.root _ (.empty defaultBase) _ _ lowered
  obtain rfl := Except.ok.inj compiled
  exact CompiledQuery.row_assemble params peeled predicate medium

namespace Registry

variable {σ : Type} {registry : Registry σ} {library : MemoryLibrary} {tree : Node}
  {order : List String} {start length : UInt64} {draw : Draw}

/-- The tree that a request for ids compiles: in the orders that are asked for, and cut to the range. -/
def requested (registry : Registry σ) (tree : Node) (order : List String) (start length : UInt64) :
    Node :=
  .limited ⟨registry.nextIdentity + order.length, none⟩ start length
    (.orderedFrom registry.nextIdentity order tree)

theorem mapM_rowId {query : CompiledQuery} {media : List Medium}
    (rows : ∀ medium, query.row medium = medium.row ["id"]) :
    (media.map query.row).mapM registry.rowId = .ok (media.map Medium.id) := by
  rw [List.mapM_eq_ok, List.forall₂_map_left_iff, List.forall₂_map_right_iff, List.forall₂_same]
  intro medium _
  simp [rows, rowId, Medium.row, Medium.field?, SortedMap.ofList, Value.toInteger?]

/-- The ids of a tree are those of the media that its query finds. -/
theorem queryIds_eq_ok (memory : registry.library = library.toMediaLibrary) {ids : List Int64} :
    registry.queryIds draw tree order start length = .ok ids ↔
      ∃ query media,
        registry.compile (registry.requested tree order start length) idParams = .ok query ∧
        query.find draw library.media = .ok media ∧ media.map Medium.id = ids := by
  have asks : registry.queryIds draw tree order start length =
      registry.query draw (registry.requested tree order start length) idParams >>= fun rows =>
        rows.mapM registry.rowId := rfl
  rw [asks, Except.bind_eq_ok]
  simp only [query_eq_ok, memory, MemoryLibrary.toMediaLibrary, MemoryLibrary.execute]
  constructor
  · rintro ⟨rows, ⟨query, compiled, executes⟩, reads⟩
    obtain ⟨media, finds, same⟩ := Except.bind_eq_ok.1 executes
    obtain rfl := Except.ok.inj same
    rw [mapM_rowId (State.row_of_compile (compile_eq_ok.1 compiled).2)] at reads
    exact ⟨query, media, compiled, finds, Except.ok.inj reads⟩
  · rintro ⟨query, media, compiled, finds, rfl⟩
    refine ⟨media.map query.row, ⟨query, compiled, ?_⟩,
      mapM_rowId (State.row_of_compile (compile_eq_ok.1 compiled).2)⟩
    rw [finds]
    rfl

theorem requested_zero (registry : Registry σ) (tree : Node) (order : List String) :
    registry.requested tree order 0 0 = .orderedFrom registry.nextIdentity order tree := by
  rw [requested, Tree.limited, if_pos ⟨rfl, rfl⟩]

/-- What is compiled with a range around it is compiled without that and without limits of its own, to
queries that differ in the range alone. -/
theorem compile_limited {mark : Mark} {query : CompiledQuery}
    (compiled : registry.compile (.limited mark start length tree) idParams = .ok query) :
    ∃ peeled, tree.peel = .ok peeled ∧
      registry.compile tree.unlimited idParams = .ok { query with limit := none } ∧
      registry.compile tree idParams =
        .ok { query with limit := queryRange idParams peeled.limit } ∧
      (¬ (start = 0 ∧ length = 0) → query.limit = some ⟨start, length⟩) := by
  obtain ⟨valid, compiled⟩ := compile_eq_ok.1 compiled
  obtain ⟨outer, peelsOuter, -⟩ := Except.bind_eq_ok.1 compiled
  -- The tree inside passes the checks, and peels to what the whole does but for the limit.
  obtain ⟨inside, limit, peels, ranged⟩ : registry.state.validate tree none = .ok () ∧
      ∃ limit, tree.peel = .ok { outer with limit } ∧
        (¬ (start = 0 ∧ length = 0) → outer.limit = some ⟨start, length⟩) := by
    by_cases whole : start = 0 ∧ length = 0
    · rw [Tree.limited, if_pos whole] at valid peelsOuter
      exact ⟨valid, outer.limit, peelsOuter, fun cuts => absurd whole cuts⟩
    · have peels := Tree.peel_limited mark whole tree
      rw [peelsOuter] at peels
      obtain ⟨peeled, below, rfl⟩ := Except.map_eq_ok.1 peels.symm
      rw [Tree.limited, if_neg whole, Tree.unary] at valid
      have passes := (Tree.check_node ..).1 (State.validate_none.1 valid)
      exact ⟨State.validate_none.2 (passes.2 tree (.head _)), peeled.limit, below, fun _ => rfl⟩
  have within := registry.state.compile_relimited peelsOuter peels
    registry.config.defaultBaseField idParams
  have unlimits := Tree.peel_unlimited peels
  have bare := registry.state.compile_relimited peelsOuter unlimits
    registry.config.defaultBaseField idParams
  rw [compiled] at within bare
  have valid' : registry.state.validate tree.unlimited none = .ok () :=
    State.validate_none.2 (Tree.check_unlimited (State.validate_none.1 inside))
  refine ⟨_, peels, compile_eq_ok.2 ⟨valid', bare⟩, compile_eq_ok.2 ⟨inside, within⟩,
    fun cuts => ?_⟩
  rw [State.compile_eq peelsOuter] at compiled
  obtain ⟨result, -, rfl⟩ := Except.map_eq_ok.1 compiled
  have kept : (start != 0 || length != 0) = true := by
    rw [Bool.or_eq_true, bne_iff_ne, bne_iff_ne]
    exact Classical.not_and_iff_not_or_not.1 cuts
  show queryRange idParams outer.limit = _
  rw [ranged cuts, queryRange, if_neg (by decide), Option.filter_some, if_pos kept]

/-- The ids of a tree whose query differs in the range from one that finds some media. -/
theorem queryIds_of_find (memory : registry.library = library.toMediaLibrary) {query : CompiledQuery}
    {media : List Medium} (finds : { query with limit := none }.find draw library.media = .ok media)
    {range : Option Range}
    (compiled : registry.compile (registry.requested tree order start length) idParams =
      .ok { query with limit := range }) :
    registry.queryIds draw tree order start length =
      .ok ((range.elim media (·.slice media)).map Medium.id) := by
  refine (queryIds_eq_ok memory).2 ⟨_, _, compiled, ?_, rfl⟩
  rw [query.find_limit range, finds]
  rfl

/-- Where a query neither groups nor orders, the ids are those of the media that it selects. -/
theorem queryIds_of_selects (memory : registry.library = library.toMediaLibrary)
    {query : CompiledQuery} {keep : Medium → Bool}
    (compiled : registry.compile (registry.requested tree order start length) idParams = .ok query)
    (ungrouped : query.groupBy = []) (unordered : query.orderBy = [])
    (selects : ∀ medium ∈ library.media, query.selects medium = .ok (keep medium)) :
    registry.queryIds draw tree order start length =
      .ok ((query.cut (library.media.filter keep)).map Medium.id) :=
  (queryIds_eq_ok memory).2 ⟨query, _, compiled,
    CompiledQuery.find_of_unordered ungrouped unordered selects draw, rfl⟩

/-- Whatever a request for ids asks for, the query without any limit finds some media under every draw,
of which the ids are cut to the range that is asked for, or else to the outermost one at the root of the
tree. -/
theorem exists_uncut (memory : registry.library = library.toMediaLibrary) {page : List Int64}
    (answers : registry.queryIds draw tree order start length = .ok page) :
    ∃ (peeled : Peeled) (query : CompiledQuery) (media : Draw → List Medium),
      tree.peel = .ok peeled ∧ query.limit = none ∧
      registry.compile (registry.requested tree.unlimited order 0 0) idParams = .ok query ∧
      ∀ draw, query.find draw library.media = .ok (media draw) ∧
        registry.queryIds draw tree order 0 0 =
          .ok ((peeled.limit.getD ⟨0, 0⟩).slice ((media draw).map Medium.id)) ∧
        (start ≠ 0 ∨ length ≠ 0 → registry.queryIds draw tree order start length =
          .ok (Range.slice ⟨start, length⟩ ((media draw).map Medium.id))) := by
  obtain ⟨query, found, compiled, finds, -⟩ := (queryIds_eq_ok memory).1 answers
  obtain ⟨outer, peelsOuter, bare, whole, ranged⟩ := compile_limited compiled
  rw [Tree.peel_orderedFrom_eq] at peelsOuter
  obtain ⟨peeled, peels, rfl⟩ := Except.map_eq_ok.1 peelsOuter
  rw [← requested_zero] at whole
  rw [Tree.unlimited_orderedFrom, ← requested_zero] at bare
  have finds : { query with limit := query.limit }.find draw library.media = .ok found := finds
  rw [query.find_limit query.limit] at finds
  obtain ⟨_, everything, -⟩ := Except.map_eq_ok.1 finds
  obtain ⟨media, all⟩ := CompiledQuery.exists_find everything
  refine ⟨peeled, _, media, peels, rfl, bare, fun draw => ⟨all draw, ?_, fun some => ?_⟩⟩
  · rw [queryIds_of_find memory (all draw) whole, queryRange_elim ⟨rfl, rfl⟩, Range.slice_map]
    rfl
  · have compiled : registry.compile (registry.requested tree order start length) idParams =
        .ok { query with limit := query.limit } := compiled
    rw [queryIds_of_find memory (all draw) compiled,
      ranged fun zero => some.elim (absurd zero.1) (absurd zero.2), Range.slice_map]
    rfl

/-- Whatever a request for ids asks for, the ids of the tree without the limits at its root can be asked
for too.  Under the same draw a page is a range of these, and so are the ids of the tree itself.  Another
draw gives these ids in another order, and in the same one unless a random order is asked for by the
request or at the root of the tree. -/
theorem queryIds_slice (memory : registry.library = library.toMediaLibrary) {page : List Int64}
    (answers : registry.queryIds draw tree order start length = .ok page) :
    ∃ (peeled : Peeled) (whole : Draw → List Int64), tree.peel = .ok peeled ∧
      (∀ draw, registry.queryIds draw tree.unlimited order 0 0 = .ok (whole draw) ∧
        registry.queryIds draw tree order 0 0 =
          .ok ((peeled.limit.getD ⟨0, 0⟩).slice (whole draw)) ∧
        (start ≠ 0 ∨ length ≠ 0 → registry.queryIds draw tree order start length =
          .ok (Range.slice ⟨start, length⟩ (whole draw)))) ∧
      ∀ draw draw', (whole draw').Perm (whole draw) ∧
        (¬ tree.Shuffles order → whole draw' = whole draw) := by
  obtain ⟨peeled, query, media, peels, unlimited, compiled, finds⟩ := exists_uncut memory answers
  refine ⟨peeled, fun draw => (media draw).map Medium.id, peels, fun draw => ?_,
    fun draw draw' => ?_⟩
  · obtain ⟨found, own, ranged⟩ := finds draw
    exact ⟨(queryIds_eq_ok memory).2 ⟨query, media draw, compiled, found, rfl⟩, own, ranged⟩
  · have found := (finds draw).1
    have found' := (finds draw').1
    refine ⟨(CompiledQuery.find_perm unlimited found found').map _, fun settled => ?_⟩
    have random := State.shuffles_of_compile (compile_eq_ok.1 compiled).2
    rw [requested_zero, Tree.shuffles_orderedFrom, Tree.shuffles_unlimited peels, idParams,
      List.append_nil] at random
    have same : query.find draw' library.media = query.find draw library.media :=
      query.find_of_draws (fun shuffles => absurd (random.1 shuffles) settled) library.media
    exact congrArg (List.map Medium.id) (Except.ok.inj (found'.symm.trans (same.trans found)))

/-! ## Pages of the first medium -/

/-- The query for all media of a small library, whatever the range, selects every one. -/
theorem selects_first (range : Option Range) :
    ∀ medium ∈ Sample.media.media,
      (CompiledQuery.assemble idParams ⟨[], range, Sample.first⟩ .always
        { defaultBase := "url" }).selects medium = .ok true := by
  intro medium member
  -- The range is no part of what selects.
  show (CompiledQuery.assemble idParams ⟨[], none, Sample.first⟩ .always
    { defaultBase := "url" }).selects medium = .ok true
  clear range
  rcases List.mem_cons.1 member with rfl | member
  · rfl
  · obtain rfl := List.mem_singleton.1 member
    rfl

theorem queryIds_slice_first :
    let registry : Registry NoStore := { library := Sample.media.toMediaLibrary, store := {} }
    registry.queryIds Sample.turned Sample.first [] 1 0 = .ok [2] ∧
      ∃ (peeled : Peeled) (whole : Draw → List Int64), Sample.first.peel = .ok peeled ∧
        (∀ draw, registry.queryIds draw Sample.first.unlimited [] 0 0 = .ok (whole draw) ∧
          registry.queryIds draw Sample.first [] 0 0 =
            .ok ((peeled.limit.getD ⟨0, 0⟩).slice (whole draw)) ∧
          ((1 : UInt64) ≠ 0 ∨ (0 : UInt64) ≠ 0 → registry.queryIds draw Sample.first [] 1 0 =
            .ok (Range.slice ⟨1, 0⟩ (whole draw)))) ∧
        ∀ draw draw', (whole draw').Perm (whole draw) ∧
          (¬ Sample.first.Shuffles [] → whole draw' = whole draw) := by
  intro registry
  have answers : registry.queryIds Sample.turned Sample.first [] 1 0 = .ok [2] :=
    queryIds_of_selects rfl rfl rfl rfl (selects_first (some ⟨1, 0⟩))
  exact ⟨answers, queryIds_slice rfl answers⟩

/-- The second page of a collection of one medium is not empty: the range of the page takes the place of
the limit. -/
theorem queryIds_first_ne :
    let registry : Registry NoStore := { library := Sample.media.toMediaLibrary, store := {} }
    Range.slice ⟨1, 0⟩ [(1 : Int64)] ≠ [2] ∧
      ∀ draw, registry.queryIds draw Sample.first [] 0 0 = .ok [1] ∧
        registry.queryIds draw Sample.first [] 1 0 = .ok [2] := by
  intro registry
  refine ⟨by decide, fun draw => ⟨?_, ?_⟩⟩
  · exact queryIds_of_selects rfl rfl rfl rfl (selects_first (some ⟨0, 1⟩))
  · exact queryIds_of_selects rfl rfl rfl rfl (selects_first (some ⟨1, 0⟩))

end Registry

end Medley
