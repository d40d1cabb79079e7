import Medley.Proofs.Meaning.Rearrangement
import Medley.Proofs.Meaning.Selection

/-!
# Queries of rearranged trees

A rearranged tree is compiled whenever the tree is, and its query selects the same media, but for one
thing: the base of a query is the field that happened to be registered first, and where that is the
default base, media must have it.  So the two queries differ on the media that lack the default base if
it is the base of one of them alone (`State.execute_rearranged`).
-/

namespace Medley

/-! ## Where the base comes from -/

namespace AliasTable

variable {table : AliasTable} {field base : String} {isOptional : Bool}

theorem base_register (found : (table.register field isOptional).2.base = some base) :
    table.base = some base ∨
      base = field ∧ field ≠ "id" ∧ (isOptional = false ∨ field = table.defaultBase) := by
  unfold register at found
  cases entry : table.find? field with
  | some entry =>
      rw [entry] at found
      cases isOptional <;> exact .inl found
  | none =>
      rw [entry] at found
      simp only at found
      split at found
      · exact .inl found
      · next other =>
        split at found
        · next becomes => exact .inr ⟨(Option.some.inj found).symm, other, becomes.2⟩
        · exact .inl found

theorem base_askAll {conditions : List Condition}
    (found : (table.askAll conditions).base = some base) :
    table.base = some base ∨ base = table.defaultBase ∨
      ∃ condition ∈ conditions, condition.needed? = some base := by
  induction conditions generalizing table with
  | nil => exact .inl found
  | cons condition rest ih =>
      rcases ih found with before | default | ⟨other, member, needed⟩
      · rcases base_register before with before | ⟨rfl, other, mandatory | default⟩
        · exact .inl before
        · refine .inr (.inr ⟨condition, .head _, ?_⟩)
          exact Condition.needed?_eq_some.2 ⟨mandatory, rfl, other⟩
        · exact .inr (.inl default)
      · exact .inr (.inl (default.trans defaultBase_register))
      · exact .inr (.inr ⟨other, .tail _ member, needed⟩)

theorem base_registerAll {fields : List String}
    (found : (table.registerAll fields).base = some base) :
    table.base = some base ∨ base = table.defaultBase := by
  induction fields generalizing table with
  | nil => exact .inl found
  | cons field rest ih =>
      rcases ih found with before | default
      · rcases base_register before with before | ⟨rfl, -, mandatory | default⟩
        · exact .inl before
        · cases mandatory
        · exact .inr default
      · exact .inr (default.trans defaultBase_register)

theorem Coherent.withBase (coherent : table.Coherent) : table.withBase.Coherent := by
  unfold AliasTable.withBase
  split
  · exact coherent.register table.defaultBase false
  · exact coherent

theorem registers_withBase (registered : table.Registers field) : table.withBase.Registers field := by
  unfold AliasTable.withBase
  split
  · exact registers_register.2 (.inl registered)
  · exact registered

end AliasTable

namespace CompiledQuery

variable {query : CompiledQuery} {params : QueryParams} {defaultBase : String}
  {conditions : List Condition} {peeled : Peeled} {predicate : Predicate}

/-- The base of a query is the default base or a property that a comparison needs.  It is empty if the
default base is the id, which no alias can be joined to. -/
theorem baseField_cases
    (isQuery : assemble params peeled predicate (AliasTable.askAll { defaultBase } conditions) = query) :
    query.baseField = defaultBase ∨ query.baseField = "" ∧ defaultBase = "id" ∨
      ∃ condition ∈ conditions, condition.needed? = some query.baseField := by
  let asked := AliasTable.askAll { defaultBase } conditions
  let grouped := asked.registerAll params.group
  let fetched := grouped.registerAll params.fetch
  have askedBase : asked.defaultBase = defaultBase := AliasTable.defaultBase_askAll conditions
  have groupedBase : grouped.defaultBase = defaultBase :=
    (AliasTable.defaultBase_registerAll _).trans askedBase
  have fetchedBase : fetched.defaultBase = defaultBase :=
    (AliasTable.defaultBase_registerAll _).trans groupedBase
  have coherent : fetched.Coherent :=
    (((AliasTable.Coherent.empty defaultBase).askAll conditions).registerAll _).registerAll _
  have isBase : query.baseField = fetched.withBase.base.getD "" := isQuery ▸ rfl
  rcases coherent.withBase_cases with ⟨base, found, same, -⟩ | ⟨-, -, ends, -⟩
  · rw [isBase, same, found, Option.getD_some]
    rcases AliasTable.base_registerAll found with found | default
    · rcases AliasTable.base_registerAll found with found | default
      · rcases AliasTable.base_askAll found with none | default | needed
        · cases none
        · exact .inl default
        · exact .inr (.inr needed)
      · exact .inl (default.trans askedBase)
    · exact .inl (default.trans groupedBase)
  · rw [isBase, ends, fetchedBase]
    split
    · next isId => exact .inr (.inl ⟨rfl, isId⟩)
    · exact .inl rfl

/-- Whether a query has to require its base if that is the default base: always, unless that is the
empty text and something else names it. -/
def RequiresDefault (defaultBase : String) (conditions : List Condition) (fetch : List String) : Prop :=
  defaultBase ≠ "" ∨ defaultBase ∉ fetch ∧ ∀ condition ∈ conditions, condition.field ≠ defaultBase

/-- Of the media that comparisons can look at, a query leaves out those that lack the default base if
that is its base. -/
theorem joinsMedium_iff_default (ungrouped : params.group = [])
    (isQuery : assemble params peeled predicate (AliasTable.askAll { defaultBase } conditions) = query)
    (medium : Medium) :
    query.joinsMedium medium = true ↔
      (∀ condition ∈ conditions, ∀ property, condition.needed? = some property →
        medium.properties.contains property = true) ∧
      (query.baseField = defaultBase → RequiresDefault defaultBase conditions params.fetch →
        medium.properties.contains defaultBase = true) := by
  have joins := joinsMedium_assemble defaultBase conditions ungrouped peeled predicate medium
  simp only [isQuery] at joins
  rw [joins, and_comm]
  refine and_congr_right fun owns => ?_
  unfold NeedsBase RequiresDefault
  by_cases isDefault : query.baseField = defaultBase
  · simp only [isDefault, true_and, true_implies]
  · refine ⟨fun _ same => absurd same isDefault, fun _ needs => ?_⟩
    rcases baseField_cases isQuery with same | ⟨empty, -⟩ | ⟨condition, member, needed⟩
    · exact absurd same isDefault
    · exact absurd needs (not_or.2 ⟨not_not.2 empty, fun same => isDefault same.1⟩)
    · exact owns condition member _ needed

end CompiledQuery

/-! ## What is answered for the media found -/

/-- The row of a medium: those of some fields that it has, or its id if there are none. -/
def Medium.row (medium : Medium) (fetch : List String) : Row :=
  if fetch.isEmpty then SortedMap.ofList [("id", .integer medium.id)]
  else SortedMap.ofList <| fetch.filterMap fun field =>
    (medium.field? field).map fun value => (field, value)

/-- Whether an order sorts by a property that is joined or by one that is looked up is the same. -/
theorem OrderBy.compareAll_orderBy (table table' : AliasTable)
    (orders : List (SortField × Direction)) :
    compareAll (orders.map fun (field, direction) => table'.orderBy field direction) =
      compareAll (orders.map fun (field, direction) => table.orderBy field direction) := by
  funext left right
  induction orders with
  | nil => rfl
  | cons order rest ih =>
      obtain ⟨field, direction⟩ := order
      have head : (table'.orderBy field direction).compare left right =
          (table.orderBy field direction).compare left right := by
        cases field <;> rfl
      exact congrArg₂ Ordering.then head ih

namespace CompiledQuery

variable {params : QueryParams} {defaultBase : String} {conditions : List Condition}

theorem row_assemble (params : QueryParams) (peeled : Peeled) (predicate : Predicate)
    (medium : Medium) :
    (assemble params peeled predicate (AliasTable.askAll { defaultBase } conditions)).row medium =
      medium.row params.fetch := by
  let grouped := (AliasTable.askAll { defaultBase } conditions).registerAll params.group
  let final := (grouped.registerAll params.fetch).withBase
  have coherent : (grouped.registerAll params.fetch).Coherent :=
    (((AliasTable.Coherent.empty defaultBase).askAll conditions).registerAll _).registerAll _
  have columns : ∀ field ∈ params.fetch,
      (medium.value? (final.column field)).map (fun value => (field, value)) =
        (medium.field? field).map fun value => (field, value) := by
    intro field member
    have registered : final.Registers field :=
      AliasTable.registers_withBase (AliasTable.registers_registerAll.2 (.inr member))
    rw [(coherent.withBase.shows_column registered).value?_eq]
  have fetches : (assemble params peeled predicate
      (AliasTable.askAll { defaultBase } conditions)).fetch =
        params.fetch.map fun field => { field, column := final.column field } := rfl
  rw [row, fetches, Medium.row, List.isEmpty_map, List.filterMap_map]
  refine congrArg _ (congrArg SortedMap.ofList (List.filterMap_congr columns))

/-- A query selects the media that it joins and that its collection is true of. -/
theorem selects_of_decides {query : CompiledQuery} {meaning : Meaning} {medium : Medium}
    (decides : query.predicate.Decides meaning)
    (judged : ∀ condition ∈ meaning.conditions, condition.Judges medium) :
    query.selects medium = .ok (query.joinsMedium medium && meaning.truth medium == some true) := by
  rw [selects]
  cases query.joinsMedium medium with
  | false => rfl
  | true =>
      rw [if_pos rfl, decides medium judged]
      rfl

end CompiledQuery

namespace MemoryLibrary

variable {library : MemoryLibrary} {query query' : CompiledQuery} {keep : Medium → Bool}

/-- Queries that select the same media, order and cut them alike and give them the same rows have the
same answer under one draw, and under any two if they shuffle nothing.  Without a range they have the
same rows under any two. -/
theorem exists_execute_eq_ok (ungrouped : query.groupBy = []) (ungrouped' : query'.groupBy = [])
    (shuffles : query'.shuffles = query.shuffles)
    (orders : OrderBy.compareAll query'.orderBy = OrderBy.compareAll query.orderBy)
    (limit : query'.limit = query.limit) (rows : query'.row = query.row)
    (selects : ∀ medium ∈ library.media, query.selects medium = .ok (keep medium))
    (selects' : ∀ medium ∈ library.media, query'.selects medium = .ok (keep medium))
    (draw draw' : Draw) :
    ∃ rows rows', library.execute draw query = .ok rows ∧ library.execute draw' query' = .ok rows' ∧
      ((query.shuffles = true → draw = draw') → rows' = rows) ∧
      (query.limit = none → rows'.Perm rows) := by
  have answers : ∀ draw, library.execute draw query' = library.execute draw query := by
    intro draw
    rw [execute, execute, CompiledQuery.find_eq_ok ungrouped selects,
      CompiledQuery.find_eq_ok ungrouped' selects', CompiledQuery.sorted_congr shuffles orders,
      CompiledQuery.cut, CompiledQuery.cut, limit, rows]
  have finds := CompiledQuery.find_eq_ok ungrouped selects
  have executes : ∀ draw, library.execute draw query = .ok _ := fun draw =>
    Except.bind_eq_ok.2 ⟨_, finds draw, rfl⟩
  refine ⟨_, _, executes draw, (answers draw').trans (executes draw'), fun drawn => ?_,
    fun unlimited => ?_⟩
  · refine Except.ok.inj ((executes draw').symm.trans (Eq.trans ?_ (executes draw)))
    exact (library.execute_of_draws drawn).symm
  · simp only [CompiledQuery.cut_of_unlimited unlimited]
    exact ((query.sorted_perm draw' _).trans (query.sorted_perm draw _).symm).map query.row

end MemoryLibrary

namespace State

variable {state : State} {defaultBase : String} {tree tree' : Node} {query : CompiledQuery}

/-- What a tree and a rearranged one are compiled to: what is peeled off is the same, the predicates
decide what the trees mean, and the same fields have been asked for in the order of each. -/
theorem compile_rearranged {params : QueryParams} (rearranged : tree.Rearranged tree')
    (compiled : state.compile defaultBase tree params = .ok query) :
    ∃ peeled root predicate predicate', predicate.Decides (state.meaning tree) ∧
      predicate'.Decides (state.meaning tree') ∧
      query = .assemble params peeled predicate
        (AliasTable.askAll { defaultBase } (state.meaning tree).conditions) ∧
      state.compile defaultBase tree' params = .ok (.assemble params { peeled with root } predicate'
        (AliasTable.askAll { defaultBase } (state.meaning tree').conditions)) := by
  obtain ⟨peeled, peels, compiled⟩ := Except.bind_eq_ok.1 compiled
  obtain ⟨⟨predicate, table⟩, lowered, compiled⟩ := Except.bind_eq_ok.1 compiled
  obtain ⟨root, peels', below⟩ := rearranged.peel peels
  obtain ⟨⟨predicate', table'⟩, lowered'⟩ :=
    state.total_predicate below ⟨_, _, lowered⟩ { defaultBase }
  obtain ⟨rfl, decides⟩ := state.lowers_predicate peeled.root _ (.empty defaultBase) _ _ lowered
  obtain ⟨rfl, decides'⟩ := state.lowers_predicate root _ (.empty defaultBase) _ _ lowered'
  rw [state.meaning_peel peels] at decides compiled
  rw [state.meaning_peel peels'] at decides' lowered'
  refine ⟨peeled, root, predicate, predicate', decides, decides', (Except.ok.inj compiled).symm, ?_⟩
  unfold State.compile
  rw [peels']
  show (state.predicate root { defaultBase } >>= _) = _
  rw [lowered']
  rfl

end State

/-- Whether a medium is found by one of two queries of a collection alone: the default base is the base
of one of them and not of the other, and it is all that the medium lacks. -/
@[mk_iff]
structure Meaning.Divides (meaning : Meaning) (query query' : CompiledQuery) (defaultBase : String)
    (fetch : List String) (medium : Medium) : Prop where
  bases : ¬ (query.baseField = defaultBase ↔ query'.baseField = defaultBase)
  required : CompiledQuery.RequiresDefault defaultBase meaning.conditions fetch
  lacks : ¬ medium.properties.contains defaultBase = true
  needed : ∀ condition ∈ meaning.conditions, ∀ property, condition.needed? = some property →
    medium.properties.contains property = true
  holds : meaning.truth medium = some true

namespace State

variable {state : State} {defaultBase : String} {tree tree' : Node} {query : CompiledQuery}
  {fetch : List String}

/-- A tree with the operands of unions and intersections in another order is compiled too.  Its query
selects the same media except those that the bases of the two divide, and without such media the
answers are the same under one draw, and under any two unless the root of the tree asks for a random
order.  Even then two draws lead to the same set of rows, if they are not cut to a range. -/
theorem execute_rearranged (library : MemoryLibrary) (rearranged : tree.Rearranged tree')
    (compiled : state.compile defaultBase tree { fetch } = .ok query)
    (judged : ∀ condition ∈ (state.meaning tree).conditions, ∀ medium ∈ library.media,
      condition.Judges medium) :
    ∃ query', state.compile defaultBase tree' { fetch } = .ok query' ∧
      (∀ medium ∈ library.media, query'.selects medium = query.selects medium ↔
        ¬ (state.meaning tree).Divides query query' defaultBase fetch medium) ∧
      ((∀ medium ∈ library.media,
          ¬ (state.meaning tree).Divides query query' defaultBase fetch medium) →
        ∀ draw draw', ∃ rows rows', library.execute draw query = .ok rows ∧
          library.execute draw' query' = .ok rows' ∧
          ((tree.Shuffles [] → draw = draw') → rows' = rows) ∧
          (query.limit = none → rows'.Perm rows)) := by
  have random := State.shuffles_of_compile compiled
  obtain ⟨peeled, root, predicate, predicate', decides, decides', rfl, compiled'⟩ :=
    compile_rearranged rearranged compiled
  have same := state.meaning_rearranged rearranged
  have ungrouped : ({ fetch } : QueryParams).group = [] := rfl
  generalize isQuery : CompiledQuery.assemble _ peeled predicate _ = query
  generalize isQuery' : CompiledQuery.assemble _ _ predicate' _ = query' at compiled'
  rw [isQuery] at random
  have joins := CompiledQuery.joinsMedium_iff_default ungrouped isQuery
  have joins' := CompiledQuery.joinsMedium_iff_default ungrouped isQuery'
  simp only [CompiledQuery.RequiresDefault, ← same.conditions.mem_iff] at joins'
  have selects : ∀ medium ∈ library.media, query.selects medium =
      .ok (query.joinsMedium medium && (state.meaning tree).truth medium == some true) := by
    intro medium member
    refine CompiledQuery.selects_of_decides (isQuery ▸ decides) ?_
    exact fun condition inside => judged condition inside medium member
  have selects' : ∀ medium ∈ library.media, query'.selects medium =
      .ok (query'.joinsMedium medium && (state.meaning tree).truth medium == some true) := by
    intro medium member
    rw [same.truth]
    refine CompiledQuery.selects_of_decides (isQuery' ▸ decides') ?_
    exact fun condition inside => judged condition (same.conditions.mem_iff.2 inside) medium member
  have agree : ∀ medium ∈ library.media, query'.selects medium = query.selects medium ↔
      ¬ (state.meaning tree).Divides query query' defaultBase fetch medium := by
    intro medium member
    rw [selects medium member, selects' medium member, Except.ok.injEq, Bool.eq_iff_iff,
      Bool.and_eq_true, Bool.and_eq_true, joins, joins', beq_iff_eq, Meaning.divides_iff]
    unfold CompiledQuery.RequiresDefault
    -- What is left is propositional.
    clear * -
    grind
  refine ⟨query', compiled', agree, fun undivided draw draw' => ?_⟩
  rw [← random]
  refine MemoryLibrary.exists_execute_eq_ok (isQuery ▸ rfl) (isQuery' ▸ rfl) ?_ ?_ ?_ ?_ selects
    (fun medium member => ((agree medium member).2 (undivided medium member)).trans
      (selects medium member)) draw draw'
  · subst isQuery isQuery'
    rw [Bool.eq_iff_iff, CompiledQuery.shuffles_assemble, CompiledQuery.shuffles_assemble]
  · subst isQuery isQuery'
    exact OrderBy.compareAll_orderBy _ _ _
  · subst isQuery isQuery'
    rfl
  · subst isQuery isQuery'
    funext medium
    rw [CompiledQuery.row_assemble, CompiledQuery.row_assemble]

end State

namespace Sample

/-- The media that have a genre, and more precisely that of jazz. -/
def jazzTested : Node :=
  .node ⟨0, none⟩ { kind := .intersection }
    [.has ⟨1, none⟩ "genre" (.everything ⟨2, none⟩),
      .filter ⟨3, none⟩ (.filter .equals) "genre" "Jazz" (.everything ⟨4, none⟩)]

/-- The same with the comparison first. -/
def jazzCompared : Node :=
  .node ⟨0, none⟩ { kind := .intersection }
    [.filter ⟨3, none⟩ (.filter .equals) "genre" "Jazz" (.everything ⟨4, none⟩),
      .has ⟨1, none⟩ "genre" (.everything ⟨2, none⟩)]

/-- The properties of a medium that has no more than its genre. -/
def jazz : Properties := SortedMap.ofList [("genre", .text "Jazz")]

theorem get?_jazz (field : String) :
    jazz.get? field = if field = "genre" then some (.text "Jazz") else none := by
  simp [jazz, SortedMap.ofList, SortedMap.get?_insert]

theorem rearranged_jazz : jazzTested.Rearranged jazzCompared :=
  .permute (.inr rfl) (List.forall₂_same.2 fun operand _ => .refl operand) (.swap _ _ [])

theorem judges_jazz (medium : Medium) :
    ∀ condition ∈ (({} : State).meaning jazzTested).conditions, condition.Judges medium := by
  have conditions : (({} : State).meaning jazzTested).conditions =
      [.has "genre", .compares .equals "genre" "Jazz" false] := rfl
  intro condition member
  rw [conditions] at member
  rcases List.mem_cons.1 member with rfl | member
  · exact ⟨_, rfl⟩
  · obtain rfl := List.mem_singleton.1 member
    exact Condition.judges_compares .equals nofun nofun "genre" "Jazz" false medium

end Sample

namespace State

theorem execute_rearranged_jazz :
    let library : MemoryLibrary := SortedMap.ofList
      [(1, Sample.jazz), (2, Sample.jazz.insert "url" (.text "b"))]
    ∃ query, ({} : State).compile "url" Sample.jazzTested {} = .ok query ∧
      ∃ query', ({} : State).compile "url" Sample.jazzCompared {} = .ok query' ∧
        (∀ medium ∈ library.media, query'.selects medium = query.selects medium ↔
          ¬ (({} : State).meaning Sample.jazzTested).Divides query query' "url" [] medium) ∧
        ((∀ medium ∈ library.media,
            ¬ (({} : State).meaning Sample.jazzTested).Divides query query' "url" [] medium) →
          ∀ draw draw', ∃ rows rows', library.execute draw query = .ok rows ∧
            library.execute draw' query' = .ok rows' ∧
            ((Sample.jazzTested.Shuffles [] → draw = draw') → rows' = rows) ∧
            (query.limit = none → rows'.Perm rows)) := by
  intro library
  refine ⟨_, rfl, execute_rearranged library Sample.rearranged_jazz rfl ?_⟩
  exact fun condition member medium _ => Sample.judges_jazz medium condition member

/-- A medium without the default base is found only where the comparison comes first, which makes the
field of that the base. -/
theorem execute_jazz_ne :
    let library : MemoryLibrary := SortedMap.ofList [(1, Sample.jazz)]
    Sample.jazzTested.Rearranged Sample.jazzCompared ∧
      (∀ condition ∈ (({} : State).meaning Sample.jazzTested).conditions,
        ∀ medium ∈ library.media, condition.Judges medium) ∧
      ∃ query query', ({} : State).compile "url" Sample.jazzTested {} = .ok query ∧
        ({} : State).compile "url" Sample.jazzCompared {} = .ok query' ∧
        ∀ draw, library.execute draw query = .ok [] ∧
          library.execute draw query' = .ok [SortedMap.ofList [("id", .integer 1)]] := by
  intro library
  let tests : List Condition := [.has "genre", .compares .equals "genre" "Jazz" false]
  let query := CompiledQuery.assemble {} ⟨[], none, Sample.jazzTested⟩
    (.all [.has (.value 1 "genre"), .compare (.value 1 "genre") .equals (.text "Jazz") false])
    (AliasTable.askAll { defaultBase := "url" } tests)
  let query' := CompiledQuery.assemble {} ⟨[], none, Sample.jazzCompared⟩
    (.all [.compare (.value 0 "genre") .equals (.text "Jazz") false, .has (.value 0 "genre")])
    (AliasTable.askAll { defaultBase := "url" } tests.reverse)
  have selects : ∀ medium ∈ library.media, query.selects medium = .ok false := by
    intro medium member
    obtain rfl := List.mem_singleton.1 member
    have lacks : Sample.jazz.contains "url" = false := by
      rw [SortedMap.contains, Sample.get?_jazz]
      rfl
    refine if_neg fun joins => ?_
    have owns := ((CompiledQuery.joinsMedium_iff_default rfl rfl _).1 joins).2 rfl (.inl (by decide))
    rw [lacks] at owns
    cases owns
  have selects' : ∀ medium ∈ library.media, query'.selects medium = .ok true := by
    intro medium member
    obtain rfl := List.mem_singleton.1 member
    have owns : Sample.jazz.get? "genre" = some (.text "Jazz") := Sample.get?_jazz "genre"
    have joins : query'.joinsMedium ⟨1, Sample.jazz⟩ = true := by
      refine (CompiledQuery.joinsMedium_iff_default rfl rfl _).2 ⟨?_, fun same => absurd same (by decide)⟩
      intro condition member property needed
      obtain ⟨mandatory, rfl, -⟩ := Condition.needed?_eq_some.1 needed
      rcases List.mem_cons.1 member with rfl | member
      · exact congrArg Option.isSome owns
      · obtain rfl := List.mem_singleton.1 member
        cases mandatory
    have evaluates : query'.predicate.evaluate ⟨1, Sample.jazz⟩ = .ok (some true) := by
      simp only [query', CompiledQuery.assemble, Predicate.evaluate, Predicate.evaluateAll,
        Medium.value?, owns, Value.compare, Value.equals, Value.toText, sameText, beq_self_eq_true]
      rfl
    exact (if_pos joins).trans (by rw [evaluates]; rfl)
  refine ⟨Sample.rearranged_jazz, ?_, query, query', rfl, rfl, fun draw => ⟨?_, ?_⟩⟩
  · exact fun condition member medium _ => Sample.judges_jazz medium condition member
  · exact MemoryLibrary.execute_eq_ok rfl rfl rfl selects draw
  · exact MemoryLibrary.execute_eq_ok rfl rfl rfl selects' draw

end State

end Medley
