import Medley.Proofs.Sql.Correspondence

/-!
# What the structure of a query depends on

Collections that correspond are compiled alike: what one is compiled to follows what the other one is
(`Compiling.Follows`), with the same numbers for the aliases and the same tokens but for the texts of
literals.  So the outline of a query (`CompiledQuery.Corresponds.outline_eq`) depends on the names of fields
only through which of them are equal, and on the texts that filters compare with only where these are
compared as integers.
-/

namespace Medley

open Compiling Sql

variable {names : String → String → Prop}

namespace Compiling

variable {α β : Type}

/-- Whether a compilation follows another one: on corresponding tables it succeeds if that does, with a
related result, and leaves corresponding tables behind. -/
def Follows (names : String → String → Prop) (related : α → α → Prop) (action action' : Compiling α) :
    Prop :=
  ∀ table table', table.Corresponds names table' → ∀ value after, action table = .ok (value, after) →
    ∃ value' after', action' table' = .ok (value', after') ∧ related value value' ∧
      after.Corresponds names after'

namespace Follows

variable {related : α → α → Prop}

theorem pure {value value' : α} (holds : related value value') :
    Follows names related (Pure.pure value) (Pure.pure value') := by
  intro table table' corresponds _ _ same
  cases same
  exact ⟨value', table', rfl, holds, corresponds⟩

theorem throw (error : Error) (action : Compiling α) :
    Follows names related (MonadExcept.throw error) action :=
  fun _ _ _ _ _ same => nomatch same

theorem bind {relatedAfter : β → β → Prop} {action action' : Compiling α} {next next' : α → Compiling β}
    (first : Follows names related action action')
    (second : ∀ value value', related value value' →
      Follows names relatedAfter (next value) (next' value')) :
    Follows names relatedAfter (action >>= next) (action' >>= next') := by
  intro table table' corresponds value after same
  obtain ⟨between, middle, step, rest⟩ := bind_eq_ok.1 same
  obtain ⟨between', middle', step', holds, corresponds⟩ := first _ _ corresponds _ _ step
  obtain ⟨value', after', rest', holds, corresponds⟩ := second _ _ holds _ _ corresponds _ _ rest
  exact ⟨value', after', bind_eq_ok.2 ⟨between', middle', step', rest'⟩, holds, corresponds⟩

theorem mapM {ι : Type} {action action' : ι → Compiling α} {items : List ι}
    (each : ∀ item ∈ items, Follows names related (action item) (action' item)) :
    Follows names (List.Forall₂ related) (items.mapM action) (items.mapM action') := by
  induction items with
  | nil => exact pure .nil
  | cons item rest ih =>
      rw [List.mapM_cons, List.mapM_cons]
      refine (each item (.head _)).bind fun value value' same => ?_
      refine (ih fun other member => each other (.tail _ member)).bind fun values values' alike => ?_
      exact pure (.cons same alike)

theorem register (apart : TellsApart names) {field field' : String} (same : names field field')
    (isOptional : Bool) :
    Follows names (Column.Corresponds field) (Compiling.register field isOptional)
      (Compiling.register field' isOptional) := by
  intro table table' corresponds value after registers
  obtain ⟨columns, tables⟩ := corresponds.register apart same isOptional
  have registers : table.register field isOptional = (value, after) := Except.ok.inj registers
  rw [registers] at columns tables
  exact ⟨_, _, rfl, columns, tables⟩

end Follows

end Compiling

namespace Compiling.Follows

theorem withOperand {filter filter' : Predicate} {operand operand' : Node × Compiling Predicate}
    (filters : filter.Corresponds filter') (dropped : operand'.1.isEverything = operand.1.isEverything)
    (follows : Follows names Predicate.Corresponds operand.2 operand'.2) :
    Follows names Predicate.Corresponds (withOperand filter operand) (withOperand filter' operand') := by
  unfold Medley.withOperand
  rw [dropped]
  split
  · exact pure filters
  · exact follows.bind fun _ _ operands =>
      pure (Predicate.congruence_corresponds.all (.cons filters (.cons operands .nil)))

/-- A node is lowered like one that it corresponds to if its operands and the references among them are. -/
theorem lower_view (apart : TellsApart names) {onReference onReference' : Address → Compiling Predicate}
    (references : ∀ address,
      Follows names Predicate.Corresponds (onReference address) (onReference' address))
    {ι : Type} {left right : ι → Node × Compiling Predicate}
    (dropped : ∀ operand, (right operand).1.isEverything = (left operand).1.isEverything)
    (each : ∀ operand, Follows names Predicate.Corresponds (left operand).2 (right operand).2)
    {view view' : View ι} (corresponds : view.Corresponds names view') (operator operator' : Operator) :
    Follows names Predicate.Corresponds ((view.map left).lower onReference operator)
      ((view'.map right).lower onReference' operator') := by
  have congruence := Predicate.congruence_corresponds
  have several : ∀ operands : List ι, Follows names (List.Forall₂ Predicate.Corresponds)
      ((operands.map left).mapM Prod.snd) ((operands.map right).mapM Prod.snd) := by
    intro operands
    rw [List.mapM_map, List.mapM_map]
    exact .mapM fun operand _ => each operand
  cases corresponds with
  | @unnamed view unnamed =>
      cases view with
      | reference name space =>
          simp only [View.map, View.lower]
          split
          · exact pure (congruence.refl _)
          · cases Namespace.read (space.getD "") with
            | error error => exact throw error _
            | ok space => exact references ⟨space, name⟩
      | «universe» => exact pure (congruence.refl _)
      | union operands => exact (several operands).bind fun _ _ same => pure (congruence.any same)
      | intersection operands => exact (several operands).bind fun _ _ same => pure (congruence.all same)
      | complement operand => exact (each operand).bind fun _ _ same => pure (congruence.not same)
      | mediaset operand => exact each operand
      | order field direction operand => exact each operand
      | limit start length operand => exact each operand
      | list form ids operand => exact pure (congruence.refl _)
      | has field operand => exact unnamed.elim
      | filter test field value caseSensitive operand => exact unnamed.elim
  | has same operand =>
      exact (register apart same true).bind fun _ _ columns =>
        withOperand (Predicate.corresponds_has columns) (dropped operand) (each operand)
  | @filter test field field' value value' same integers caseSensitive operand =>
      refine (register apart same false).bind fun column column' columns => ?_
      cases made : filterLiteral operator test column value caseSensitive with
      | error error => exact throw error _
      | ok found =>
          obtain ⟨comparison, literal⟩ := found
          obtain ⟨literal', made', literals⟩ := exists_filterLiteral_of_corresponds operator'
            columns integers made
          simp only [made']
          exact withOperand (Predicate.corresponds_compare columns literals comparison caseSensitive)
            (dropped operand) (each operand)
  | order same direction operand => exact each operand

end Compiling.Follows

/-- Whether what has been peeled off two trees is the same but for names. -/
structure Peeled.Corresponds (names : String → String → Prop) (peeled peeled' : Peeled) : Prop where
  orders : List.Forall₂ (Sorts names) peeled.orders peeled'.orders
  limit : peeled'.limit = peeled.limit
  root : peeled.root.Corresponds names peeled'.root

theorem Peeled.Corresponds.exists_around {outer outer' peeled : Peeled}
    {action action' : Except Error Peeled}
    (orders : List.Forall₂ (Sorts names) outer.orders outer'.orders) (limit : outer'.limit = outer.limit)
    (inside : ∀ inner, action = .ok inner →
      ∃ inner', action' = .ok inner' ∧ inner.Corresponds names inner')
    (peels : action.map outer.around = .ok peeled) :
    ∃ peeled', action'.map outer'.around = .ok peeled' ∧ peeled.Corresponds names peeled' := by
  obtain ⟨inner, found, rfl⟩ := Except.map_eq_ok.1 peels
  obtain ⟨inner', found', same⟩ := inside inner found
  refine ⟨_, Except.map_eq_ok.2 ⟨inner', found', rfl⟩, List.rel_append orders same.orders, ?_, same.root⟩
  rw [Peeled.around, Peeled.around, limit, same.limit]

namespace Tree.Corresponds

/-- Trees that correspond are lowered alike if the references in them are. -/
theorem follows_lower (apart : TellsApart names)
    {onReference onReference' : Option Handle → Address → Compiling Predicate}
    (references : ∀ link address,
      Follows names Predicate.Corresponds (onReference link address) (onReference' link address))
    {node node' : Node} (corresponds : node.Corresponds names node') :
    Follows names Predicate.Corresponds (lower onReference node) (lower onReference' node') := by
  induction node using Tree.induction generalizing node' with
  | node mark operator operands ih =>
      cases corresponds with
      | @node _ mark' _ operator' _ operands' link operators each =>
          have alike : List.Forall₂ (fun operand operand' =>
              operand'.isEverything = operand.isEverything ∧ Follows names Predicate.Corresponds
                (lower onReference operand) (lower onReference' operand')) operands operands' :=
            forall₂_of_mem each fun operand member operand' same =>
              ⟨same.isEverything_eq, ih operand member same⟩
          obtain ⟨pairs, rfl, rfl⟩ := exists_pairs alike
          rw [lower_node, lower_node, List.map_map, List.map_map, Operator.view_map, Operator.view_map,
            link]
          cases reads : operator.view pairs with
          | error error => exact .throw error _
          | ok view =>
              obtain ⟨view', reads', views⟩ := operators.exists_view apart reads
              rw [reads']
              exact .lower_view apart (references mark.link) (fun pair => pair.2.1) (fun pair => pair.2.2)
                views operator operator'

/-- What is peeled off trees that correspond is the same but for names. -/
theorem exists_peel (apart : TellsApart names) {node node' : Node} {peeled : Peeled}
    (corresponds : node.Corresponds names node') (peels : node.peel = .ok peeled) :
    ∃ peeled', node'.peel = .ok peeled' ∧ peeled.Corresponds names peeled' := by
  induction node using Tree.induction generalizing node' peeled with
  | node mark operator operands ih =>
      have whole := corresponds
      cases corresponds with
      | @node _ mark' _ operator' _ operands' link operators each =>
          have alike : List.Forall₂ (fun operand operand' : Node => ∀ peeled, operand.peel = .ok peeled →
              ∃ peeled', operand'.peel = .ok peeled' ∧ peeled.Corresponds names peeled')
              operands operands' :=
            forall₂_of_mem each fun operand member operand' same peeled => ih operand member same
          obtain ⟨pairs, rfl, rfl⟩ := exists_pairs alike
          rw [peel_node, Operator.view_map] at peels
          rw [peel_node, Operator.view_map]
          cases reads : operator.view pairs with
          | error error => rw [reads] at peels; cases peels
          | ok view =>
              obtain ⟨view', reads', views⟩ := operators.exists_view apart reads
              rw [reads] at peels
              rw [reads']
              cases views with
              | @unnamed view unnamed =>
                  cases view with
                  | order field direction pair =>
                      refine Peeled.Corresponds.exists_around (.cons ⟨?_, rfl⟩ .nil) rfl pair.2 peels
                      cases field with
                      | id => exact .id
                      | random => exact .random
                      | property name => exact unnamed.elim
                  | limit start length pair => exact Peeled.Corresponds.exists_around .nil rfl pair.2 peels
                  | _ =>
                      cases peels
                      exact ⟨_, rfl, .nil, rfl, whole⟩
              | order same direction pair =>
                  refine Peeled.Corresponds.exists_around ?_ ?_ pair.2 peels
                  · exact .cons ⟨.property same, rfl⟩ .nil
                  · rfl
              | has | filter =>
                  cases peels
                  exact ⟨_, rfl, .nil, rfl, whole⟩

end Tree.Corresponds

/-! ## States and queries -/

/-- Whether states have collections that correspond under the same names. -/
structure State.Corresponds (names : String → String → Prop) (state state' : State) : Prop where
  stored : ∀ space, state'.names space = state.names space
  slots : List.Forall₂ (Option.Rel (Tree.Corresponds names)) state.slots state'.slots

namespace State

variable {state state' : State}

theorem Corresponds.resolve (corresponds : state.Corresponds names state') (handle : Handle) :
    Option.Rel (Tree.Corresponds names) (state.resolve handle) (state'.resolve handle) := by
  have found := rel_getElem? corresponds.slots handle.index
  unfold State.resolve
  generalize state.slots[handle.index]? = slot at found
  generalize state'.slots[handle.index]? = slot' at found
  cases found with
  | none => exact .none
  | some inside => exact inside

theorem Corresponds.follow (corresponds : state.Corresponds names state') (link : Option Handle)
    (address : Address) : state'.follow link address = state.follow link address := by
  have held : ∀ handle, (state'.resolve handle).isSome = (state.resolve handle).isSome := by
    intro handle
    rw [Bool.eq_iff_iff, ← Option.ne_none_iff_isSome, ← Option.ne_none_iff_isSome, Ne, Ne,
      rel_none_iff (corresponds.resolve handle)]
  simp only [State.follow, State.lookup, corresponds.stored, held]

variable (apart : TellsApart names) (corresponds : state.Corresponds names state')
include apart corresponds

/-- However far references are followed, trees that correspond are compiled alike. -/
theorem follows_predicateWithin (budget : Nat) (visiting : List Handle) {node node' : Node}
    (nodes : node.Corresponds names node') :
    Follows names Predicate.Corresponds (state.predicateWithin budget visiting node)
      (state'.predicateWithin budget visiting node') := by
  induction budget generalizing visiting node node' with
  | zero => exact nodes.follows_lower apart fun _ _ => .throw _ _
  | succ budget ih =>
      refine nodes.follows_lower apart fun link address => ?_
      show Follows names Predicate.Corresponds (state.pursue budget visiting link address)
        (state'.pursue budget visiting link address)
      unfold pursue
      rw [corresponds.follow]
      cases state.follow link address with
      | none => exact .throw _ _
      | some handle =>
          simp only
          split
          · exact .throw _ _
          · cases found : state.resolve handle with
            | none => exact .throw _ _
            | some target =>
                obtain ⟨target', found', targets⟩ :=
                  exists_of_rel_some (found ▸ corresponds.resolve handle)
                rw [found']
                exact ih (handle :: visiting) targets

theorem follows_predicate {node node' : Node} (nodes : node.Corresponds names node') :
    Follows names Predicate.Corresponds (state.predicate node) (state'.predicate node') := by
  unfold State.predicate
  rw [← corresponds.slots.length_eq]
  exact follows_predicateWithin apart corresponds _ [] nodes

end State

/-- Whether requests ask for the same but for the names of fields. -/
structure QueryParams.Corresponds (names : String → String → Prop) (params params' : QueryParams) :
    Prop where
  fetch : List.Forall₂ names params.fetch params'.fetch
  order : List.Forall₂ (fun entry entry' => Sorts names (readOrder entry) (readOrder entry'))
    params.order params'.order
  group : List.Forall₂ names params.group params'.group
  start : params'.start = params.start
  length : params'.length = params.length

theorem AliasTable.isPlain_orderBy (table : AliasTable) (field : SortField) (direction : Direction) :
    (table.orderBy field direction).IsPlain := by
  cases field with
  | id => exact .inl rfl
  | random => exact .inl rfl
  | property name => exact .inr rfl

theorem Alias.Corresponds.blank_tokens {entry entry' : Alias} (corresponds : entry.Corresponds names entry') :
    entry'.tokens.map Token.blank = entry.tokens.map Token.blank := by
  unfold Alias.tokens
  rw [corresponds.number, corresponds.isOptional]
  simp only [List.map_append]
  rfl

/-- The joins of corresponding aliases are written alike. -/
theorem blank_joins {aliases aliases' : List Alias}
    (each : List.Forall₂ (Alias.Corresponds names) aliases aliases') :
    ((aliases'.filter Alias.isJoin).flatMap Alias.tokens).map Token.blank =
      ((aliases.filter Alias.isJoin).flatMap Alias.tokens).map Token.blank := by
  induction each with
  | nil => rfl
  | @cons entry entry' _ _ head _ ih =>
      have joins : entry'.isJoin = entry.isJoin := by rw [Alias.isJoin, Alias.isJoin, head.kind, head.number]
      rw [List.filter_cons, List.filter_cons, joins]
      split
      · rw [List.flatMap_cons, List.flatMap_cons, List.map_append, List.map_append, head.blank_tokens, ih]
      · exact ih

/-- Lists behind a keyword are written alike if their items are. -/
theorem blank_listed {ι : Type} (opened : List Token) (tokens : ι → List Token) {items items' : List ι}
    (each : List.Forall₂ (fun item item' =>
      (tokens item').map Token.blank = (tokens item).map Token.blank) items items') :
    (if items'.isEmpty then [] else opened ++ [.sign ","].intercalate (items'.map tokens)).map Token.blank =
      (if items.isEmpty then [] else opened ++ [.sign ","].intercalate (items.map tokens)).map
        Token.blank := by
  rw [isEmpty_of_forall₂ each]
  split
  · rfl
  · rw [List.map_append, List.map_append, blank_intercalate, blank_intercalate, List.map_map, List.map_map]
    exact congrArg _ (congrArg _ (map_eq_of_forall₂ each fun _ _ same => same))

namespace CompiledQuery

/-- Whether queries are written alike but for the names of what they answer with and the texts of
literals. -/
structure Corresponds (names : String → String → Prop) (query query' : CompiledQuery) : Prop where
  fetch : List.Forall₂ (fun entry entry' => entry'.column.tokens = entry.column.tokens)
    query.fetch query'.fetch
  aliases : List.Forall₂ (Alias.Corresponds names) query.aliases query'.aliases
  predicate : query.predicate.Corresponds query'.predicate
  groupBy : List.Forall₂ (fun column column' => column'.tokens.map Token.blank =
    column.tokens.map Token.blank) query.groupBy query'.groupBy
  orderBy : List.Forall₂ (fun order order' => order'.tokens.map Token.blank =
    order.tokens.map Token.blank) query.orderBy query'.orderBy
  limit : query'.limit = query.limit

theorem Corresponds.outline_eq {query query' : CompiledQuery} (corresponds : query.Corresponds names query') :
    query'.outline = query.outline := by
  have answers : query'.fetch.map (fun entry => entry.column.tokens ++ [.word "AS"]) =
      query.fetch.map fun entry => entry.column.tokens ++ [.word "AS"] :=
    map_eq_of_forall₂ corresponds.fetch fun _ _ same => congrArg (· ++ [Token.word "AS"]) same
  have predicates : query'.predicate.tokens.map Token.blank = query.predicate.tokens.map Token.blank :=
    corresponds.predicate
  have groups := blank_listed [.word "GROUP", .word "BY"] Column.tokens corresponds.groupBy
  have orders := blank_listed [.word "ORDER", .word "BY"] OrderBy.tokens corresponds.orderBy
  simp only [outline, tail, joins, isEmpty_of_forall₂ corresponds.fetch, answers, corresponds.limit,
    List.map_append, blank_joins corresponds.aliases, predicates, groups, orders]
  rfl

/-- Queries that are assembled from what corresponds are written alike. -/
theorem corresponds_assemble (apart : TellsApart names) {params params' : QueryParams}
    {peeled peeled' : Peeled} {predicate predicate' : Predicate} {table table' : AliasTable}
    (requests : params.Corresponds names params') (peels : peeled.Corresponds names peeled')
    (predicates : predicate.Corresponds predicate') (tables : table.Corresponds names table') :
    (assemble params peeled predicate table).Corresponds names
      (assemble params' peeled' predicate' table') := by
  have tables := ((tables.registerAll apart requests.group).registerAll apart requests.fetch).withBase apart
  have sorted : List.Forall₂ (Sorts names) (peeled.orders ++ params.order.map readOrder)
      (peeled'.orders ++ params'.order.map readOrder) :=
    List.rel_append peels.orders (forall₂_map requests.order fun _ _ same => same)
  exact {
    fetch := forall₂_map requests.fetch fun _ _ same => tables.tokens_column apart same
    aliases := tables.aliases
    predicate := predicates
    groupBy := forall₂_map requests.group fun _ _ same =>
      congrArg (List.map Token.blank) (tables.tokens_column apart same)
    orderBy := forall₂_map sorted fun _ _ sorts => tables.blank_orderBy apart sorts
    limit := by simp only [assemble, queryRange, requests.start, requests.length, peels.limit] }

end CompiledQuery

namespace State

variable {state : State} {defaultBase : String} {tree : Node} {params : QueryParams}
  {query : CompiledQuery}

/-- The text of a query is read as its outline, with the fields that are fetched behind `AS`. -/
theorem outline_sql (compiled : state.compile defaultBase tree params = .ok query)
    (entries : ∀ field ∈ params.fetch, IsName field) :
    outline (lex query.sql) = query.outline ∧
      (∀ token ∈ query.outline, token.IsFixed ∨ token = .literal "") ∧
      List.Forall₂ (fun field name => lex field = [name])
        (if params.fetch.isEmpty then ["id"] else params.fetch) (answerNames (lex query.sql)) := by
  obtain ⟨peeled, predicate, table, -, -, rfl⟩ := compile_eq_ok.1 compiled
  have plain : ∀ order ∈ (CompiledQuery.assemble params peeled predicate table).orderBy, order.IsPlain := by
    intro order member
    obtain ⟨sorted, -, rfl⟩ := List.mem_map.1 member
    exact AliasTable.isPlain_orderBy ..
  have fetched : ∀ entry ∈ (CompiledQuery.assemble params peeled predicate table).fetch,
      IsName entry.field := by
    intro entry member
    obtain ⟨field, inside, rfl⟩ := List.mem_map.1 member
    exact entries field inside
  rw [CompiledQuery.lex_sql rfl plain fun entry member => (fetched entry member).reads]
  obtain ⟨outlined, answered⟩ := CompiledQuery.outline_tokens plain fun entry member => (fetched entry member).single
  refine ⟨outlined, CompiledQuery.fixed_outline plain, ?_⟩
  simpa [CompiledQuery.assemble, Function.comp_def] using answered

/-- No text changes the structure of a query.  As long as every field that is fetched is a name, the text of
a query is read as keywords, marks, integers, names of table aliases and literals, with the fields that are
fetched behind `AS`.  Other names for the fields that keep the same ones apart, and other texts to compare
with, change nothing but the literals and the names behind `AS`. -/
theorem sql_keeps_structure (compiled : state.compile defaultBase tree params = .ok query)
    (entries : ∀ field ∈ params.fetch, IsName field) :
    (∀ token ∈ outline (lex query.sql), token.IsFixed ∨ token = .literal "") ∧
      List.Forall₂ (fun field name => lex field = [name])
        (if params.fetch.isEmpty then ["id"] else params.fetch) (answerNames (lex query.sql)) ∧
      ∀ {names : String → String → Prop} {state' : State} {defaultBase' : String} {tree' : Node}
        {params' : QueryParams}, TellsApart names → state.Corresponds names state' →
        names defaultBase defaultBase' → tree.Corresponds names tree' → params.Corresponds names params' →
        (∀ field ∈ params'.fetch, IsName field) →
        ∃ query', state'.compile defaultBase' tree' params' = .ok query' ∧
          outline (lex query'.sql) = outline (lex query.sql) := by
  obtain ⟨outlined, fixed, answered⟩ := outline_sql compiled entries
  refine ⟨outlined ▸ fixed, answered, ?_⟩
  intro names state' defaultBase' tree' params' apart states bases trees requests entries'
  obtain ⟨peeled, predicate, table, peels, lowered, rfl⟩ := compile_eq_ok.1 compiled
  obtain ⟨peeled', peels', peelings⟩ := trees.exists_peel apart peels
  obtain ⟨predicate', table', lowered', predicates, tables⟩ :=
    follows_predicate apart states peelings.root _ _ (.empty bases) _ _ lowered
  have compiled' : state'.compile defaultBase' tree' params' =
      .ok (.assemble params' peeled' predicate' table') :=
    compile_eq_ok.2 ⟨peeled', predicate', table', peels', lowered', rfl⟩
  refine ⟨_, compiled', ?_⟩
  rw [(outline_sql compiled' entries').1, outlined]
  exact (CompiledQuery.corresponds_assemble apart requests peelings predicates tables).outline_eq

/-- Other fields, and a text that looks like the rest of a query. -/
theorem sql_keeps_structure_quoted :
    let titled (field value : String) : Node :=
      .filter ⟨0, none⟩ (.filter .equals) field value (.everything ⟨1, none⟩)
    let params : QueryParams := { fetch := ["artist"], order := ["-artist"] }
    let params' : QueryParams := { fetch := ["genre"], order := ["-genre"] }
    ∃ query query' : CompiledQuery,
      ({} : State).compile "url" (titled "title" "Blue") params = .ok query ∧
      ({} : State).compile "path" (titled "it's" "' OR 1=1 --") params' = .ok query' ∧
      (∀ token ∈ outline (lex query.sql), token.IsFixed ∨ token = .literal "") ∧
      List.Forall₂ (fun field name => lex field = [name]) ["artist"] (answerNames (lex query.sql)) ∧
      outline (lex query'.sql) = outline (lex query.sql) := by
  intro titled params params'
  let names (field field' : String) : Prop :=
    (field, field') ∈ [("id", "id"), ("url", "path"), ("title", "it's"), ("artist", "genre")]
  have apart : TellsApart names := by
    refine ⟨fun {field field' other other'} first second => ?_, .head _⟩
    simp only [names, List.mem_cons, Prod.mk.injEq, List.not_mem_nil, or_false] at first second
    rcases first with ⟨rfl, rfl⟩ | ⟨rfl, rfl⟩ | ⟨rfl, rfl⟩ | ⟨rfl, rfl⟩ <;>
      rcases second with ⟨rfl, rfl⟩ | ⟨rfl, rfl⟩ | ⟨rfl, rfl⟩ | ⟨rfl, rfl⟩ <;> decide
  have bases : names "url" "path" := by simp [names]
  have artists : names "artist" "genre" := by simp [names]
  have trees : (titled "title" "Blue").Corresponds names (titled "it's" "' OR 1=1 --") :=
    .filter rfl (by simp [names]) (fun compares => nomatch compares) (.everything _ _ rfl)
  have requests : params.Corresponds names params' :=
    ⟨.cons artists .nil, .cons ⟨.property artists, rfl⟩ .nil, .nil, rfl, rfl⟩
  have compiled : ({} : State).compile "url" (titled "title" "Blue") params =
      .ok (.assemble params ⟨[], none, titled "title" "Blue"⟩
        (.compare (.value 0 "title") .equals (.text "Blue") false)
        (({ defaultBase := "url" } : AliasTable).register "title" false).2) := rfl
  obtain ⟨fixed, answered, alike⟩ := sql_keeps_structure compiled
    (List.forall_mem_singleton.2 (isName_of_word rfl rfl))
  obtain ⟨query', compiled', same⟩ := alike apart ⟨fun _ => rfl, .nil⟩ bases trees requests
    (List.forall_mem_singleton.2 (isName_of_word rfl rfl))
  exact ⟨_, query', compiled, compiled', fixed, answered, same⟩

/-- What does show in the structure: a fetched field that is not one name, for it is written as it is, the
minus sign of an order entry, and an integer that a filter compares by magnitude. -/
theorem sql_shows_texts :
    let everything : Node := .everything ⟨0, none⟩
    let after (year : String) : Node := .filter ⟨1, none⟩ (.filter .greater) "year" year everything
    (∃ query, ({} : State).compile "url" everything { fetch := ["a b"] } = .ok query ∧
      .word "b" ∈ outline (lex query.sql) ∧ ¬ (Token.word "b").IsFixed) ∧
    (∃ query query' : CompiledQuery,
      ({} : State).compile "url" everything { order := ["artist"] } = .ok query ∧
      ({} : State).compile "url" everything { order := ["-artist"] } = .ok query' ∧
      outline (lex query'.sql) ≠ outline (lex query.sql)) ∧
    ∃ query query' : CompiledQuery,
      ({} : State).compile "url" (after "1") {} = .ok query ∧
      ({} : State).compile "url" (after "2") {} = .ok query' ∧
      outline (lex query'.sql) ≠ outline (lex query.sql) := by
  intro everything after
  have asked : ∀ params : QueryParams, ({} : State).compile "url" everything params =
      .ok (.assemble params ⟨[], none, everything⟩ .always { defaultBase := "url" }) := fun _ => rfl
  let compared (year : String) (number : Int64) : CompiledQuery :=
    .assemble {} ⟨[], none, after year⟩ (.compare (.value 0 "year") .greater (.integer number) false)
      (({ defaultBase := "url" } : AliasTable).register "year" false).2
  have first : ({} : State).compile "url" (after "1") {} = .ok (compared "1" 1) := rfl
  have second : ({} : State).compile "url" (after "2") {} = .ok (compared "2" 2) := rfl
  have read : ∀ {tree : Node} {order : List String} {query : CompiledQuery},
      ({} : State).compile "url" tree { order } = .ok query → outline (lex query.sql) = query.outline :=
    fun compiled => (outline_sql compiled fun _ member => nomatch member).1
  refine ⟨⟨_, asked _, by decide +kernel, ?_⟩, ⟨_, _, asked _, asked _, ?_⟩,
    ⟨_, _, first, second, ?_⟩⟩
  · rintro (keyword | ⟨number, named⟩)
    · cases keyword
    · have spelled := congrArg String.toList (Token.word.inj named)
      rw [aliasName, String.toList_append] at spelled
      cases spelled
  · rw [read (asked _), read (asked _)]
    decide
  · rw [read first, read second]
    decide

end State

end Medley
