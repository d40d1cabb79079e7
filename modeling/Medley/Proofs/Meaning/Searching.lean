import Medley.Proofs.Media.Components
import Medley.Proofs.Meaning.Unions
import Medley.Proofs.Pattern.Validity

/-!
# Searches for a word

A bare word is searched in a union over several fields.  The first field is the base, and the query joins
all of them, so a medium is found that has every field and the word in one of them
(`Registry.returns_search`); a medium that lacks one is left out, wherever the word is.
-/

namespace Medley

open Compiling

namespace AliasTable

variable {table : AliasTable} {base : String}

theorem base_register_of_base (isBase : table.base = some base) (field : String) (isOptional : Bool) :
    (table.register field isOptional).2.base = some base := by
  unfold register
  split
  · cases isOptional <;> exact isBase
  · split
    · exact isBase
    · split
      · next becomes => cases isBase.symm.trans becomes.1
      · exact isBase

theorem base_askAll_of_base (isBase : table.base = some base) (conditions : List Condition) :
    (table.askAll conditions).base = some base :=
  askAll_of_register (motive := (·.base = some base))
    (fun field isOptional isBase => base_register_of_base isBase field isOptional) isBase conditions

theorem base_registerAll_of_base (isBase : table.base = some base) (fields : List String) :
    (table.registerAll fields).base = some base :=
  registerAll_of_register (motive := (·.base = some base))
    (fun field isOptional isBase => base_register_of_base isBase field isOptional) isBase fields

end AliasTable

/-- The first property that a comparison needs is the base if no filter comes before. -/
theorem CompiledQuery.baseField_of_first {condition : Condition} {property : String}
    (needed : condition.needed? = some property) (rest : List Condition) (defaultBase : String)
    (params : QueryParams) (peeled : Peeled) (predicate : Predicate) :
    (assemble params peeled predicate
      (AliasTable.askAll { defaultBase } (condition :: rest))).baseField = property := by
  obtain ⟨mandatory, rfl, other⟩ := Condition.needed?_eq_some.1 needed
  have first : (AliasTable.ask { defaultBase } condition).base = some condition.field := by
    rw [AliasTable.ask, AliasTable.register, mandatory]
    simp [AliasTable.find?, other, AliasTable.push]
  have asked : (AliasTable.askAll { defaultBase } (condition :: rest)).base = some condition.field :=
    AliasTable.base_askAll_of_base first rest
  have grouped := AliasTable.base_registerAll_of_base asked params.group
  have fetched := AliasTable.base_registerAll_of_base grouped params.fetch
  show (AliasTable.withBase _).base.getD "" = _
  rw [AliasTable.withBase, if_neg fun absent => Option.some_ne_none _ (fetched.symm.trans absent)]
  exact congrArg (Option.getD · "") fetched

/-- A word is found in every text that has it, whether in upper or in lower case. -/
theorem Condition.truth_token {field word : String} {medium : Medium} {value : Value}
    (judges : (compares .token field word false).Judges medium)
    (shows : medium.field? field = some value)
    (inside : word.toList.map Char.toLower <:+: value.toText.toList.map Char.toLower) :
    (compares .token field word false).truth medium = some true := by
  obtain ⟨truth, judged⟩ := judges
  rw [Condition.truth, judged]
  rw [judge, shows] at judged
  have judged : value.isLike false (Glob.ofLike ("%" ++ word ++ "%")) = .ok truth := judged
  obtain ⟨tokens, parses, rfl⟩ := Value.isLike_eq_ok.1 judged
  exact congrArg some (Glob.isMatch_of_infix parses inside)

namespace Pattern

/-- A pattern of one word searches it in every field. -/
theorem parse_word {fields : List String} {pattern : String} {token : Token}
    (reads : tokenize pattern = ([token], none)) (plain : token.kind = .string) :
    parse fields pattern = .ok (searchAll fields .token token.text) := by
  have settles : settle [token] = [token] := rfl
  exact parse_of_simple reads (settles ▸ .word plain)

end Pattern

namespace Tree

variable {tree : Node} {mark mark' : Mark} {field word : String} {test : FilterTest}

/-- A filter for a word in the whole library, whatever the marks of its nodes. -/
theorem exists_of_shape_filter
    (same : tree.shape = .filter () (.filter test) field word Pattern.everything) :
    ∃ mark mark', tree = .filter mark (.filter test) field word (.everything mark') := by
  obtain ⟨mark, operator, operands⟩ := tree
  rw [shape_node, filter, unary, node.injEq] at same
  obtain ⟨-, rfl, operands⟩ := same
  obtain ⟨⟨mark', operator, none⟩, rfl, whole⟩ := List.map_eq_singleton_iff.1 operands
  rw [shape_node, Pattern.everything, everything, leaf, node.injEq] at whole
  obtain ⟨-, rfl, none⟩ := whole
  obtain rfl := List.map_eq_nil_iff.1 none
  exact ⟨mark, mark', rfl⟩

theorem view_filter_word {ω : Type} (wordy : test.isNumeric = false) (field word : String) (operand : ω) :
    (Operator.withAttributes (.filter test) [(Key.field, field), (Key.value, word)]).view [operand] =
      .ok (.filter test (.property field) word false operand) := by
  refine Operator.view_filter rfl ?_ ?_ ?_ (by simp [Operator.needsInteger, wordy]) operand
  · simp [Operator.get?_withAttributes]
  · simp [Operator.filterField, Operator.require, Operator.get?_withAttributes, Key.type, Key.field,
      Key.value, Except.map]
  · simp [Operator.get?_withAttributes, Key.caseSensitive, Key.field, Key.value]

theorem total_lower_filter (onReference : Option Handle → Address → Compiling Predicate) :
    Total (lower onReference (.filter mark (.filter .token) field word (.everything mark'))) := by
  rw [filter, unary, lower_node, List.map_cons, List.map_nil, view_filter_word rfl]
  exact (Total.register field false).bind fun column =>
    Total.pure (Predicate.compare column .like (.text ("%" ++ word ++ "%")) false)

end Tree

/-- A search for a word in a field passes the checks and can be compiled. -/
theorem Registry.exists_compile_filter {σ : Type} {registry : Registry σ} {mark mark' : Mark}
    {field word : String} {params : QueryParams} :
    ∃ query, registry.compile (.filter mark (.filter .token) field word (.everything mark')) params =
      .ok query := by
  have valid : registry.state.validate
      (.filter mark (.filter .token) field word (.everything mark')) none = .ok () := by
    refine State.validate_none.2 ((Tree.check_node ..).2
      ⟨⟨_, Tree.view_filter_word rfl .., trivial⟩, fun operand member => ?_⟩)
    obtain rfl := List.mem_singleton.1 member
    rfl
  have lowers : Total (registry.state.predicate
      (.filter mark (.filter .token) field word (.everything mark'))) := by
    rw [State.predicate, State.predicateWithin_eq_lower]
    exact Tree.total_lower_filter _
  obtain ⟨query, compiled, -⟩ :=
    State.exists_compile_of_total (Tree.peel_of_view (Tree.view_filter_word rfl ..)) lowers registry.config.defaultBaseField params
  exact ⟨query, compile_eq_ok.2 ⟨valid, compiled⟩⟩

namespace State

/-- What a filter for a word means. -/
theorem meaning_filter_token {state : State} {mark mark' : Mark} {field word : String} :
    state.meaning (.filter mark (.filter .token) field word (.everything mark')) =
      .filtered (.compares .token field word false) .everything := by
  rw [meaning, meaningWithin, Tree.filter, Tree.unary,
    Tree.meaning_of_view (Tree.view_filter_word rfl ..)]
  exact congrArg (Meaning.filtered _) (Tree.meaning_everything rfl _)

/-- What the search for a word in several fields means. -/
theorem meaning_searchAll {state : State} {tree : Node} {fields : List String} (nonempty : fields ≠ [])
    {word : String} (same : tree.shape = Pattern.searchAll fields .token word) :
    state.meaning tree =
      .any (fields.map fun field => .filtered (.compares .token field word false) .everything) := by
  obtain ⟨mark, operator, operands⟩ := tree
  rw [Tree.shape_node, Pattern.searchAll, Tree.node.injEq] at same
  obtain ⟨-, rfl, operands⟩ := same
  rw [← List.forall₂_eq_eq_eq, List.forall₂_map_left_iff, List.forall₂_map_right_iff] at operands
  have means : List.Forall₂ (fun operand field => state.meaning operand =
      .filtered (.compares .token field word false) .everything) _ fields := operands.imp (by
    intro operand field same
    obtain ⟨mark, mark', rfl⟩ := Tree.exists_of_shape_filter same
    exact meaning_filter_token)
  rw [meaning_union rfl]
  · refine congrArg Meaning.any ?_
    rwa [← List.forall₂_eq_eq_eq, List.forall₂_map_left_iff, List.forall₂_map_right_iff]
  · rintro rfl
    cases operands
    exact nonempty rfl

section Search

variable {state : State} {tree : Node} {fields : List String} (nonempty : fields ≠ []) {word : String}
  (same : tree.shape = Pattern.searchAll fields .token word) {medium : Medium}

include nonempty same

theorem conditions_searchAll : (state.meaning tree).conditions =
    fields.map fun field => .compares .token field word false := by
  rw [meaning_searchAll nonempty same]
  show (List.map _ _).flatMap _ = _
  rw [List.flatMap_map, List.map_eq_flatMap]
  rfl

/-- The search is true of a medium with the word in one of the fields. -/
theorem truth_searchAll {field : String} {value : Value} (member : field ∈ fields)
    (judged : ∀ condition ∈ (state.meaning tree).conditions, condition.Judges medium)
    (shows : medium.field? field = some value)
    (inside : word.toList.map Char.toLower <:+: value.toText.toList.map Char.toLower) :
    (state.meaning tree).truth medium = some true := by
  rw [conditions_searchAll nonempty same] at judged
  have found := Condition.truth_token (judged _ (List.mem_map_of_mem member)) shows inside
  rw [meaning_searchAll nonempty same]
  refine Meaning.any_truth (List.mem_map_of_mem member) ?_
  show Truth.and _ _ = _
  rw [found]
  rfl

/-- The query of a search joins the media that have all its properties, the first of which is the base. -/
theorem joinsMedium_searchAll (properties : "id" ∉ fields) {defaultBase : String} {fetch : List String}
    {query : CompiledQuery} (compiled : state.compile defaultBase tree { fetch } = .ok query)
    (owns : ∀ field ∈ fields, medium.properties.contains field = true) :
    query.joinsMedium medium = true := by
  obtain ⟨peeled, predicate, -, isQuery⟩ := exists_assemble compiled
  have conditions : (state.meaning tree).conditions = _ := conditions_searchAll nonempty same
  refine (CompiledQuery.joinsMedium_iff_default rfl isQuery medium).2
    ⟨fun condition asked property needed => ?_, fun isDefault _ => ?_⟩
  · rw [conditions] at asked
    obtain ⟨field, member, rfl⟩ := List.mem_map.1 asked
    obtain ⟨-, same, -⟩ := Condition.needed?_eq_some.1 needed
    exact same ▸ owns field member
  · obtain ⟨first, others, rfl⟩ := List.exists_cons_of_ne_nil nonempty
    have other : first ≠ "id" := fun isId => properties (isId ▸ .head _)
    have needed : (Condition.compares .token first word false).needed? = some first :=
      Condition.needed?_eq_some.2 ⟨rfl, rfl, other⟩
    rw [← isDefault, ← isQuery, conditions, List.map_cons, CompiledQuery.baseField_of_first needed]
    exact owns first (.head _)

end Search

end State

namespace Registry

variable {σ : Type} {registry : Registry σ} {library : MemoryLibrary} {fetch : List String}

theorem exists_compile_searchAll {tree : Node} {fields : List String} (nonempty : fields ≠ [])
    {word : String} (same : tree.shape = Pattern.searchAll fields .token word) (params : QueryParams) :
    ∃ query, registry.compile tree params = .ok query ∧ query.limit = queryRange params none := by
  obtain ⟨mark, operator, operands⟩ := tree
  rw [Tree.shape_node, Pattern.searchAll, Tree.node.injEq] at same
  obtain ⟨-, rfl, operands⟩ := same
  refine exists_compile_union mark rfl (fun none => ?_) fun operand member => ?_
  · subst none
    exact nonempty (List.map_eq_nil_iff.1 operands.symm)
  have shaped := operands ▸ List.mem_map_of_mem (f := Tree.shape) member
  obtain ⟨field, -, same⟩ := List.mem_map.1 shaped
  obtain ⟨mark, mark', rfl⟩ := Tree.exists_of_shape_filter same.symm
  exact exists_compile_filter

/-- A search for a word in several properties finds the media that have all of these and the word in one of
them. -/
theorem returns_search (fetch : List String) (memory : registry.library = library.toMediaLibrary)
    {fields : List String} (nonempty : fields ≠ []) (properties : "id" ∉ fields) {word : String}
    {tree : Node} (same : tree.shape = Pattern.searchAll fields .token word)
    (judged : ∀ condition ∈ (registry.state.meaning tree).conditions, ∀ medium ∈ library.media,
      condition.Judges medium) (draw : Draw) :
    ∃ query found, registry.Returns library draw fetch tree query found ∧
      ∀ medium ∈ library.media, (∀ field ∈ fields, medium.properties.contains field = true) →
        ∀ field ∈ fields, ∀ value, medium.properties.get? field = some value →
          word.toList.map Char.toLower <:+: value.toText.toList.map Char.toLower → medium ∈ found := by
  obtain ⟨query, compiled, unlimited⟩ := exists_compile_searchAll nonempty same { fetch }
  obtain ⟨found, returns, -, complete⟩ := exists_returns memory compiled judged draw
  refine ⟨query, found, returns, fun medium inside owns field member value shows contains => ?_⟩
  have other : field ≠ "id" := fun isId => properties (isId ▸ member)
  refine complete unlimited medium inside ?_ ?_
  · exact State.joinsMedium_searchAll nonempty same properties (compile_eq_ok.1 compiled).2 owns
  · exact State.truth_searchAll nonempty same member
      (fun condition asked => judged condition asked medium inside) ((if_neg other).trans shows) contains

/-- Of the media that an operand alone finds, a union finds those that have what the filters of all its
operands need, and the default base if that is the base of the union and not of the operand.  The search
for a bare word finds the media that have an artist, an album and a title, and the word in the artist. -/
theorem returns_union (memory : registry.library = library.toMediaLibrary) (fetch : List String) :
    (∀ (mark : Mark) (operator : Operator) (operands : List Node), operator.kind = .union →
      (∀ operand ∈ operands, ∃ query, registry.compile operand { fetch } = .ok query) →
      (∀ operand ∈ operands, ∀ condition ∈ (registry.state.meaning operand).conditions,
        ∀ medium ∈ library.media, condition.Judges medium) →
      ∀ operand ∈ operands,
        let defaultBase := registry.config.defaultBaseField
        let conditions := operands.flatMap fun other => (registry.state.meaning other).conditions
        ∀ draw draw', ∃ query found whole joint,
          registry.Returns library draw fetch operand query found ∧
          registry.Returns library draw' fetch (.node mark operator operands) whole joint ∧
          ∀ medium ∈ found, medium ∈ joint ↔
            (∀ condition ∈ conditions, ∀ property, condition.needed? = some property →
              medium.properties.contains property = true) ∧
            (whole.baseField = defaultBase → query.baseField ≠ defaultBase →
              CompiledQuery.RequiresDefault defaultBase conditions fetch →
              medium.properties.contains defaultBase = true)) ∧
    ∀ (pattern : String) (token : Pattern.Token), Pattern.tokenize pattern = ([token], none) →
      token.kind = .string →
      ∃ shape, Pattern.parse Pattern.defaultFields pattern = .ok shape ∧
        ∀ tree : Node, tree.shape = shape →
          (∀ condition ∈ (registry.state.meaning tree).conditions, ∀ medium ∈ library.media,
            condition.Judges medium) →
          ∀ draw, ∃ query found, registry.Returns library draw fetch tree query found ∧
            ∀ medium ∈ library.media,
              (∀ field ∈ Pattern.defaultFields, medium.properties.contains field = true) →
              ∀ value, medium.properties.get? "artist" = some value →
                token.text.toList.map Char.toLower <:+: value.toText.toList.map Char.toLower →
                medium ∈ found := by
  refine ⟨fun mark operator operands isUnion compile judged operand member =>
    returns_operand memory isUnion compile judged member, fun pattern token reads plain => ?_⟩
  refine ⟨_, Pattern.parse_word reads plain, fun tree same judged draw => ?_⟩
  obtain ⟨query, found, returns, finds⟩ := returns_search fetch memory
    (List.cons_ne_nil "artist" ["album", "title"]) (by decide) same judged draw
  exact ⟨query, found, returns, fun medium inside owns => finds medium inside owns "artist" (.head _)⟩

end Registry

/-! ## A search for an artist -/

namespace Sample

/-- The search for a name in a field. -/
def searchIn (field : String) (identity : Nat) : Node :=
  .filter ⟨identity, none⟩ (.filter .token) field "Tool" (.everything ⟨identity + 1, none⟩)

/-- The searches for the name among the artists, the albums and the titles. -/
def searches : List Node := [searchIn "artist" 1, searchIn "album" 3, searchIn "title" 5]

/-- The search for the name in all three fields. -/
def search : Node := .node ⟨0, none⟩ { kind := .union } searches

/-- A medium of which no more than the artist is known. -/
def untitled : Medium := ⟨1, .ofList [("artist", .text "Tool")]⟩

/-- A medium that has all that is searched. -/
def titled : Medium :=
  ⟨2, .ofList [("artist", .text "Tool"), ("album", .text "Lateralus"), ("title", .text "Schism")]⟩

/-- A library of both media. -/
def tools : MemoryLibrary := .ofList [(1, untitled.properties), (2, titled.properties)]

/-- A registry over this library. -/
def listening : Registry NoStore := { library := tools.toMediaLibrary, store := {} }

theorem exists_of_mem_searches {operand : Node} (member : operand ∈ searches) :
    ∃ field identity, operand = searchIn field identity := by
  simp only [searches, List.mem_cons, List.not_mem_nil, or_false] at member
  rcases member with rfl | rfl | rfl <;> exact ⟨_, _, rfl⟩

/-- The pattern of the name is well-formed. -/
theorem judges_searches {state : State} : ∀ operand ∈ searches,
    ∀ condition ∈ (state.meaning operand).conditions, ∀ medium, condition.Judges medium := by
  intro operand member condition asked medium
  obtain ⟨field, identity, rfl⟩ := exists_of_mem_searches member
  rw [searchIn, State.meaning_filter_token] at asked
  obtain rfl := List.mem_singleton.1 asked
  unfold Condition.Judges
  rw [Condition.judge]
  cases medium.field? field with
  | none => exact ⟨none, rfl⟩
  | some value => exact ⟨_, rfl⟩

/-- What is answered to a query, by whether it selects the two media. -/
theorem execute_tools {draw : Draw} {query : CompiledQuery} (keep : Medium → Bool)
    (plain : query.groupBy = [] ∧ query.orderBy = [] ∧ query.limit = none)
    (first : query.selects untitled = .ok (keep untitled))
    (second : query.selects titled = .ok (keep titled)) :
    tools.execute draw query = .ok ((tools.media.filter keep).map query.row) := by
  refine MemoryLibrary.execute_eq_ok plain.1 plain.2.1 plain.2.2 (fun medium member => ?_) draw
  rcases List.mem_cons.1 member with rfl | member
  · exact first
  · obtain rfl := List.mem_singleton.1 member
    exact second

theorem compile_searches : ∀ operand ∈ searches, ∃ query,
    listening.compile operand { fetch := ["id"] } = .ok query := by
  intro operand member
  obtain ⟨field, identity, rfl⟩ := exists_of_mem_searches member
  exact Registry.exists_compile_filter

end Sample

namespace Registry

theorem returns_union_search :
    (let conditions := Sample.searches.flatMap fun other =>
        (Sample.listening.state.meaning other).conditions
      ∀ draw draw', ∃ query found whole joint,
        Sample.listening.Returns Sample.tools draw ["id"] (Sample.searchIn "artist" 1) query found ∧
        Sample.listening.Returns Sample.tools draw' ["id"] Sample.search whole joint ∧
        ∀ medium ∈ found, medium ∈ joint ↔
          (∀ condition ∈ conditions, ∀ property, condition.needed? = some property →
            medium.properties.contains property = true) ∧
          (whole.baseField = "url" → query.baseField ≠ "url" →
            CompiledQuery.RequiresDefault "url" conditions ["id"] →
            medium.properties.contains "url" = true)) ∧
      ∀ draw, ∃ query found,
        Sample.listening.Returns Sample.tools draw ["id"] Sample.search query found ∧
        Sample.titled ∈ found := by
  have memory : Sample.listening.library = Sample.tools.toMediaLibrary := rfl
  obtain ⟨unions, words⟩ := returns_union memory ["id"]
  refine ⟨unions ⟨0, none⟩ { kind := .union } Sample.searches rfl Sample.compile_searches
    (fun operand member condition asked medium _ =>
      Sample.judges_searches operand member condition asked medium) _ (.head _), fun draw => ?_⟩
  obtain ⟨shape, parsed, finds⟩ := words "Tool" ⟨.string, "Tool", 0⟩ rfl rfl
  have describes : Pattern.parse Pattern.defaultFields "Tool" = .ok Sample.search.shape := rfl
  have same : Sample.search.shape = shape := Except.ok.inj (describes.symm.trans parsed)
  have judged : ∀ condition ∈ (Sample.listening.state.meaning Sample.search).conditions,
      ∀ medium ∈ Sample.tools.media, condition.Judges medium := by
    intro condition asked medium _
    rw [Sample.search, State.conditions_union rfl (show Sample.searches ≠ [] from nofun)] at asked
    obtain ⟨operand, member, asked⟩ := List.mem_flatMap.1 asked
    exact Sample.judges_searches operand member condition asked medium
  obtain ⟨query, found, returns, has⟩ := finds Sample.search same judged draw
  refine ⟨query, found, returns, has Sample.titled (.tail _ (.head _)) (by decide) (.text "Tool") rfl ?_⟩
  exact List.infix_rfl

/-- A medium whose artist has the word is found among the artists, but not by the search for the word if
it has neither album nor title. -/
theorem query_search_ne :
    Pattern.parse Pattern.defaultFields "Tool" = .ok Sample.search.shape ∧
      Sample.searchIn "artist" 1 ∈ Sample.search.operands ∧
      (∀ operand ∈ Sample.search.operands, ∃ query,
        Sample.listening.compile operand { fetch := ["id"] } = .ok query) ∧
      (∀ operand ∈ Sample.search.operands,
        ∀ condition ∈ (Sample.listening.state.meaning operand).conditions,
          ∀ medium ∈ Sample.tools.media, condition.Judges medium) ∧
      ∀ draw, Sample.listening.query draw (Sample.searchIn "artist" 1) { fetch := ["id"] } =
          .ok [.ofList [("id", .integer 1)], .ofList [("id", .integer 2)]] ∧
        Sample.listening.query draw Sample.search { fetch := ["id"] } =
          .ok [.ofList [("id", .integer 2)]] := by
  refine ⟨rfl, .head _, Sample.compile_searches, fun operand member condition asked medium _ =>
    Sample.judges_searches operand member condition asked medium, fun draw => ⟨?_, ?_⟩⟩
  · refine query_eq_ok.2 ⟨_, rfl, ?_⟩
    exact Sample.execute_tools (fun _ => true) ⟨rfl, rfl, rfl⟩ rfl rfl
  · refine query_eq_ok.2 ⟨_, rfl, ?_⟩
    exact Sample.execute_tools (fun medium => medium.id = 2) ⟨rfl, rfl, rfl⟩ rfl rfl

end Registry

end Medley
