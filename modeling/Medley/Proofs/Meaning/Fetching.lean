import Medley.Proofs.Meaning.Paging
import Medley.Proofs.Sql.Columns

/-!
# What is fetched

What a request fetches is registered in the table that filters and groups are registered in, before a
base is chosen.  It is optional there, so nothing more is joined, and it can become the base only where
that would be the default base anyhow (`AliasTable.Coherent.base_withBase_registerAll`).  So the same
media are found whatever is fetched (`State.compile_fetch`), with one exception: the empty text as the
default base also stands for no base at all, and then it depends on what is fetched whether media must
have it (`CompiledQuery.LeavesBase`).
-/

namespace Medley

namespace AliasTable

variable {table : AliasTable}

theorem Coherent.base_withBase (coherent : table.Coherent) :
    table.withBase.base =
      table.base.or (if table.defaultBase = "id" then none else some table.defaultBase) := by
  rcases coherent.withBase_cases with ⟨base, isBase, same, -⟩ | ⟨baseless, -, isBase, -⟩
  · rw [same, isBase]
    rfl
  · rw [isBase, baseless]
    rfl

/-- A field that is registered as optional becomes the base only in place of the same default one. -/
theorem Coherent.base_withBase_register (coherent : table.Coherent) (field : String) :
    (table.register field true).2.withBase.base = table.withBase.base := by
  rw [(coherent.register field true).base_withBase, coherent.base_withBase, defaultBase_register]
  unfold AliasTable.register
  split
  · rfl
  · split
    · rfl
    · next other =>
      split
      · next becomes =>
        obtain ⟨baseless, default⟩ := becomes
        obtain rfl := default.resolve_left nofun
        rw [baseless, if_neg other]
        rfl
      · rfl

theorem Coherent.base_withBase_registerAll (coherent : table.Coherent) (fields : List String) :
    (table.registerAll fields).withBase.base = table.withBase.base := by
  induction fields generalizing table with
  | nil => rfl
  | cons field rest ih =>
      exact (ih (coherent.register field true)).trans (coherent.base_withBase_register field)

theorem registerAll_append (fields more : List String) :
    table.registerAll (fields ++ more) = (table.registerAll fields).registerAll more :=
  List.foldl_append

end AliasTable

namespace CompiledQuery

variable {query query' : CompiledQuery} {defaultBase : String} {conditions : List Condition}
  {params : QueryParams} {peeled : Peeled} {predicate : Predicate} {medium : Medium}

/-- Whether it is left to what is fetched if media must have the default base: that is the empty text
and the base, and neither a group nor a filter names it. -/
structure LeavesBase (query : CompiledQuery) (defaultBase : String) (conditions : List Condition)
    (group : List String) : Prop where
  blank : defaultBase = ""
  base : query.baseField = ""
  ungrouped : "" ∉ group
  untested : ∀ condition ∈ conditions, condition.field ≠ ""

/-- Groups count as fetched when it comes to what a query joins. -/
theorem joinsMedium_iff_fetched
    (isQuery : assemble params peeled predicate (AliasTable.askAll { defaultBase } conditions) = query) :
    query.joinsMedium medium = true ↔
      (∀ condition ∈ conditions, ∀ property, condition.needed? = some property →
        medium.properties.contains property = true) ∧
      (query.baseField = defaultBase →
        RequiresDefault defaultBase conditions (params.group ++ params.fetch) →
        medium.properties.contains defaultBase = true) := by
  let table := AliasTable.askAll { defaultBase } conditions
  let ungrouped : QueryParams := { fetch := params.group ++ params.fetch }
  have tables : (table.registerAll params.group).registerAll params.fetch =
      (table.registerAll ungrouped.group).registerAll ungrouped.fetch :=
    (AliasTable.registerAll_append params.group params.fetch).symm
  have joins : query.joinsMedium medium =
      (assemble ungrouped peeled predicate table).joinsMedium medium := by
    rw [← isQuery]
    simp only [assemble, joinsMedium, table, tables]
  have base : query.baseField = (assemble ungrouped peeled predicate table).baseField := by
    rw [← isQuery]
    simp only [assemble, table, tables]
  rw [joins, base]
  exact joinsMedium_iff_default rfl rfl medium

theorem baseField_fetch (params : QueryParams) (fetch : List String) (peeled : Peeled)
    (predicate : Predicate) :
    (assemble { params with fetch } peeled predicate
      (AliasTable.askAll { defaultBase } conditions)).baseField =
    (assemble params peeled predicate (AliasTable.askAll { defaultBase } conditions)).baseField := by
  have coherent : ((AliasTable.askAll { defaultBase } conditions).registerAll params.group).Coherent :=
    ((AliasTable.Coherent.empty defaultBase).askAll conditions).registerAll params.group
  simp only [assemble, coherent.base_withBase_registerAll]

/-- Unless it is left to what is fetched, the default base has to be there whatever that is. -/
theorem requiresDefault_iff {group fetch fetch' : List String} (isBase : query.baseField = defaultBase)
    (fetches : query.LeavesBase defaultBase conditions group → ("" ∈ fetch ↔ "" ∈ fetch')) :
    RequiresDefault defaultBase conditions (group ++ fetch) ↔
      RequiresDefault defaultBase conditions (group ++ fetch') := by
  unfold RequiresDefault
  refine or_congr_right' fun blank => and_congr_left fun untested => ?_
  obtain rfl := not_not.1 blank
  rw [List.mem_append, List.mem_append, not_or, not_or]
  exact and_congr_right fun ungrouped =>
    not_congr (fetches ⟨rfl, isBase, ungrouped, untested⟩)

/-- What a query finds depends on which media it selects, how they are grouped, whether they are
shuffled, how they compare and where they are cut. -/
theorem find_congr {media media' : List Medium}
    (selects : media'.filterM query'.selects = media.filterM query.selects)
    (groups : query'.groupBy.isEmpty = query.groupBy.isEmpty)
    (values : ∀ medium : Medium,
      query'.groupBy.map medium.value? = query.groupBy.map medium.value?)
    (shuffles : query'.shuffles = query.shuffles)
    (orders : OrderBy.compareAll query'.orderBy = OrderBy.compareAll query.orderBy)
    (limit : query'.limit = query.limit) (draw : Draw) :
    query'.find draw media' = query.find draw media := by
  have grouped : query'.grouped = query.grouped := by
    funext selected
    unfold CompiledQuery.grouped
    simp only [groups, values]
  rw [find_eq, find_eq, selects, grouped, sorted_congr shuffles orders]
  simp only [cut, limit]

/-- Media that a query leaves out for want of a property could as well be taken away before. -/
theorem filterM_filter {media : List Medium} {keep : Medium → Bool}
    (selects : ∀ medium, query'.selects medium =
      if keep medium then query.selects medium else .ok false) :
    media.filterM query'.selects = (media.filter keep).filterM query.selects := by
  have builds : ∀ before, List.filterAuxM query'.selects media before =
      List.filterAuxM query.selects (media.filter keep) before := by
    induction media with
    | nil => exact fun before => rfl
    | cons medium rest ih =>
        intro before
        rw [List.filterAuxM, selects, List.filter_cons]
        cases keep medium with
        | true =>
          rw [if_pos rfl, if_pos rfl, List.filterAuxM]
          simp only [ih]
        | false => exact ih before
  unfold List.filterM
  rw [builds]

section Fetched

variable {fetch : List String}
  (isQuery : assemble params peeled predicate (AliasTable.askAll { defaultBase } conditions) = query)
  (isQuery' : assemble { params with fetch } peeled predicate
    (AliasTable.askAll { defaultBase } conditions) = query')

include isQuery isQuery'

/-- Requests that fetch different fields group, order and cut alike the media that are selected. -/
theorem find_fetch {media media' : List Medium}
    (selects : media'.filterM query'.selects = media.filterM query.selects) (draw : Draw) :
    query'.find draw media' = query.find draw media := by
  let grouped := (AliasTable.askAll { defaultBase } conditions).registerAll params.group
  have coherent : grouped.Coherent :=
    ((AliasTable.Coherent.empty defaultBase).askAll conditions).registerAll params.group
  -- A group is by the values of the field that it names, whichever column shows them.
  have columns : ∀ (fetch : List String) (medium : Medium),
      (params.group.map (grouped.registerAll fetch).withBase.column).map medium.value? =
        params.group.map medium.field? := by
    intro fetch medium
    rw [List.map_map]
    refine List.map_congr_left fun field member => ?_
    have registered : grouped.Registers field := AliasTable.registers_registerAll.2 (.inr member)
    exact ((coherent.registerAll fetch).withBase.shows_column (AliasTable.registers_withBase
      (AliasTable.registers_registerAll.2 (.inl registered)))).value?_eq medium
  refine find_congr selects ?_ ?_ ?_ ?_ ?_ draw
  · rw [← isQuery, ← isQuery']
    simp only [assemble, List.isEmpty_map]
  · intro medium
    rw [← isQuery, ← isQuery']
    exact (columns fetch medium).trans (columns params.fetch medium).symm
  · rw [← isQuery, ← isQuery', Bool.eq_iff_iff, shuffles_assemble, shuffles_assemble]
  · rw [← isQuery, ← isQuery']
    exact OrderBy.compareAll_orderBy _ _ _
  · rw [← isQuery, ← isQuery']
    rfl

/-- The same media are found whatever is fetched, unless that decides about the base. -/
theorem find_fetch_of_alike
    (fetches : query.LeavesBase defaultBase conditions params.group →
      ("" ∈ params.fetch ↔ "" ∈ fetch)) (draw : Draw) (media : List Medium) :
    query'.find draw media = query.find draw media := by
  have base : query'.baseField = query.baseField := by
    rw [← isQuery, ← isQuery']
    exact baseField_fetch params fetch peeled predicate
  have joins : ∀ medium, query'.joinsMedium medium = query.joinsMedium medium := by
    intro medium
    rw [Bool.eq_iff_iff, joinsMedium_iff_fetched isQuery, joinsMedium_iff_fetched isQuery', base]
    refine and_congr_right fun _ => forall_congr' fun isBase => ?_
    exact imp_congr_left (requiresDefault_iff isBase fetches).symm
  have selects : query'.selects = query.selects := by
    funext medium
    have predicates : query'.predicate = query.predicate := by rw [← isQuery, ← isQuery']; rfl
    rw [CompiledQuery.selects, CompiledQuery.selects, joins, predicates]
  exact find_fetch isQuery isQuery' (by rw [selects]) draw

/-- Where that is left to what is fetched, only media with the default base are found unless the empty
text is fetched. -/
theorem find_fetch_of_leavesBase (leaves : query.LeavesBase defaultBase conditions params.group)
    (fetched : "" ∈ params.fetch) (unfetched : "" ∉ fetch) (draw : Draw) (media : List Medium) :
    query'.find draw media =
      query.find draw (media.filter fun medium => medium.properties.contains "") := by
  obtain ⟨rfl, isBase, ungrouped, untested⟩ := leaves
  have base : query'.baseField = "" := by
    rw [← isQuery']
    exact (baseField_fetch params fetch peeled predicate).trans (isQuery ▸ isBase)
  have joins : ∀ medium, query'.joinsMedium medium =
      (medium.properties.contains "" && query.joinsMedium medium) := by
    intro medium
    rw [Bool.eq_iff_iff, Bool.and_eq_true, joinsMedium_iff_fetched isQuery,
      joinsMedium_iff_fetched isQuery']
    have free : ¬ RequiresDefault "" conditions (params.group ++ params.fetch) := by
      rintro (other | ⟨absent, -⟩)
      · exact other rfl
      · exact absent (List.mem_append_right _ fetched)
    have required : RequiresDefault "" conditions (params.group ++ fetch) :=
      .inr ⟨fun member => (List.mem_append.1 member).elim ungrouped unfetched, untested⟩
    simp only [base, isBase, free, required, true_implies, false_implies, and_true]
    exact and_comm
  refine find_fetch isQuery isQuery' (filterM_filter fun medium => ?_) draw
  have predicates : query'.predicate = query.predicate := by rw [← isQuery, ← isQuery']; rfl
  rw [CompiledQuery.selects, CompiledQuery.selects, joins, predicates]
  cases medium.properties.contains "" <;> rfl

end Fetched

end CompiledQuery

/-- Two requests that fetch different fields are both compiled or fail alike.  Their queries find the
same media, or fail alike, and answer with the fields fetched of each of these, unless it is left to
what is fetched whether media must have the empty text and one of the two fetches that: then it finds
media without it too, and the other one those of the rest alone.  The two may be drawn apart unless a
random order is asked for by the request or at the root of the tree: then they find the same under the
same draw. -/
theorem State.compile_fetch (state : State) (defaultBase : String) (tree : Node) (params : QueryParams)
    (fetch : List String) :
    (∃ error, state.compile defaultBase tree params = .error error ∧
        state.compile defaultBase tree { params with fetch } = .error error) ∨
      ∃ query query', state.compile defaultBase tree params = .ok query ∧
        state.compile defaultBase tree { params with fetch } = .ok query' ∧
        ((query.LeavesBase defaultBase (state.meaning tree).conditions params.group →
            ("" ∈ params.fetch ↔ "" ∈ fetch)) →
          ∀ (library : MemoryLibrary) (draw draw' : Draw),
            (tree.Shuffles params.order → draw = draw') →
            ∃ found : Except Error (List Medium),
              library.execute draw query = found.map (·.map (·.row params.fetch)) ∧
              library.execute draw' query' = found.map (·.map (·.row fetch))) ∧
        (query.LeavesBase defaultBase (state.meaning tree).conditions params.group →
          "" ∈ params.fetch → "" ∉ fetch → ∀ draw draw',
            (tree.Shuffles params.order → draw = draw') → ∀ media,
              query'.find draw' media =
                query.find draw (media.filter fun medium => medium.properties.contains "")) := by
  cases compiled : state.compile defaultBase tree params with
  | error error =>
      refine .inl ⟨error, rfl, ?_⟩
      cases peels : tree.peel with
      | error other =>
          rw [compile_eq_error peels] at compiled ⊢
          exact compiled
      | ok peeled =>
          rw [compile_eq peels, Except.map_eq_error] at compiled
          rw [compile_eq peels, compiled]
          rfl
  | ok query =>
      obtain ⟨peeled, predicate, table, peels, lowered, isQuery⟩ := compile_eq_ok.1 compiled
      obtain ⟨rfl, -⟩ := state.lowers_predicate peeled.root _ (.empty defaultBase) _ _ lowered
      have compiled' : state.compile defaultBase tree { params with fetch } = .ok _ :=
        compile_eq_ok.2 ⟨peeled, predicate, _, peels, lowered, rfl⟩
      rw [state.meaning_peel peels] at isQuery compiled'
      generalize isQuery' : CompiledQuery.assemble { params with fetch } _ _ _ = query' at compiled'
      have random := shuffles_of_compile compiled
      refine .inr ⟨query, query', rfl, compiled', fun fetches library draw draw' drawn => ?_,
        fun leaves fetched unfetched draw draw' drawn media => ?_⟩
      · have finds : query'.find draw' library.media = query.find draw library.media :=
          calc query'.find draw' library.media
            _ = query.find draw' library.media :=
              CompiledQuery.find_fetch_of_alike isQuery.symm isQuery' fetches draw' library.media
            _ = query.find draw library.media :=
              query.find_of_draws (fun shuffles => (drawn (random.1 shuffles)).symm) library.media
        have rows : query.row = (·.row params.fetch) := funext (row_of_compile compiled)
        have rows' : query'.row = (·.row fetch) := funext (row_of_compile compiled')
        refine ⟨query.find draw library.media, ?_, ?_⟩
        · rw [MemoryLibrary.execute, rows]
          cases query.find draw library.media <;> rfl
        · rw [MemoryLibrary.execute, rows', finds]
          cases query.find draw library.media <;> rfl
      · rw [CompiledQuery.find_fetch_of_leavesBase isQuery.symm isQuery' leaves fetched unfetched draw']
        exact query.find_of_draws (fun shuffles => (drawn (random.1 shuffles)).symm) _

/-- With the empty text as the default base, a medium without properties is found only if that is
fetched. -/
example :
    let library : MemoryLibrary := SortedMap.ofList [(1, ∅)]
    let tree : Node := .everything ⟨0, none⟩
    (State.compile {} "" tree {} >>= library.execute default) = .ok [] ∧
      (State.compile {} "" tree { fetch := [""] } >>= library.execute default) = .ok [∅] := by
  cbv

end Medley
