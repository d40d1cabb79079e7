import Medley.Proofs.Meaning.Fetching
import Medley.Proofs.Meaning.Searching

/-!
# Filters for words

The predicate of a filter is its own test, together with its operand unless that is the whole library.  So a
filter that asks for less than another of the same property and operand selects at least the same media
(`State.exists_compile_weaker`).  Over the whole library a filter for a word is compiled to its test on the
media that have its property (`State.exists_compile_of_view`).
-/

namespace Medley

open Compiling

theorem exists_filterLiteral_word (operator : Operator) {test : FilterTest}
    (wordy : test.isNumeric = false) (column : Column) (word : String) (caseSensitive : Bool) :
    ∃ comparison literal,
      filterLiteral operator test column word caseSensitive = .ok (comparison, literal) := by
  cases test with
  | equals | notEqual | token => exact ⟨_, _, rfl⟩
  | pattern => cases caseSensitive <;> exact ⟨_, _, rfl⟩
  | _ => cases wordy

/-- A comparison is true of the media that have a value that it accepts. -/
theorem Condition.judge_eq_true {test : FilterTest} {field word : String} {caseSensitive : Bool}
    {medium : Medium} : (compares test field word caseSensitive).judge medium = .ok (some true) ↔
      ∃ value, medium.field? field = some value ∧
        judgeValue test field word caseSensitive value = .ok (some true) := by
  rw [judge]
  cases medium.field? field <;> simp

namespace Predicate

/-- Whether a filter stands in a predicate as it does in that of its node: alone, or together with an
operand. -/
inductive Encloses : (Predicate → Predicate) → Prop where
  | alone : Encloses id
  | operand (operand : Predicate) : Encloses fun filter => .all [filter, operand]

theorem evaluate_all_pair {filter operand : Predicate} {medium : Medium} :
    (all [filter, operand]).evaluate medium = .ok (some true) ↔
      filter.evaluate medium = .ok (some true) ∧ operand.evaluate medium = .ok (some true) := by
  rw [evaluate, evaluateAll, evaluateAll, evaluateAll]
  rcases filter.evaluate medium with error | (_ | _ | _) <;>
    rcases operand.evaluate medium with error | (_ | _ | _) <;>
    simp [bind, Except.bind, pure, Except.pure, Truth.and]

/-- What stands around a filter cannot make it true. -/
theorem Encloses.evaluate_mono {around : Predicate → Predicate} (encloses : Encloses around)
    {filter filter' : Predicate} {medium : Medium}
    (implies : filter.evaluate medium = .ok (some true) → filter'.evaluate medium = .ok (some true))
    (holds : (around filter).evaluate medium = .ok (some true)) :
    (around filter').evaluate medium = .ok (some true) := by
  cases encloses with
  | alone => exact implies holds
  | operand operand =>
      obtain ⟨tested, rest⟩ := evaluate_all_pair.1 holds
      exact evaluate_all_pair.2 ⟨implies tested, rest⟩

end Predicate

namespace CompiledQuery

variable {query : CompiledQuery} {medium : Medium}

/-- A query selects the media among those that it joins that its predicate is true of. -/
theorem selects_of_joins (joins : query.joinsMedium medium = true) :
    query.selects medium = (query.predicate.evaluate medium).map (· == some true) := by
  rw [selects, if_pos joins]
  cases query.predicate.evaluate medium <;> rfl

theorem selects_eq_true : query.selects medium = .ok true ↔
    query.joinsMedium medium = true ∧ query.predicate.evaluate medium = .ok (some true) := by
  by_cases joins : query.joinsMedium medium = true
  · rw [and_iff_right joins, selects_of_joins joins]
    cases query.predicate.evaluate medium <;> simp [Except.map]
  · rw [selects, if_neg joins]
    refine iff_of_false (fun selected => ?_) fun both => joins both.1
    cases selected

end CompiledQuery

/-- What a filter is put together with does not depend on the filter. -/
theorem withOperand_eq_ok {operand : Node × Compiling Predicate} {table after : AliasTable}
    {filter predicate : Predicate} (lowers : withOperand filter operand table = .ok (predicate, after)) :
    ∃ around, Predicate.Encloses around ∧ predicate = around filter ∧
      ∀ filter', withOperand filter' operand table = .ok (around filter', after) := by
  unfold withOperand at lowers ⊢
  split
  · next everything =>
    rw [if_pos everything] at lowers
    cases lowers
    exact ⟨id, .alone, rfl, fun _ => rfl⟩
  · next owned =>
    rw [if_neg owned] at lowers
    obtain ⟨inner, between, below, same⟩ := bind_eq_ok.1 lowers
    cases same
    exact ⟨_, .operand inner, rfl, fun filter' => bind_eq_ok.2 ⟨inner, _, below, rfl⟩⟩

section

variable {state : State} {mark : Mark} {operator : Operator} {operand : Node} {test : FilterTest}
  {field : Field} {word : String} {caseSensitive : Bool}
  (reads : operator.view [operand] = .ok (.filter test field word caseSensitive operand))

include reads

/-- A filter registers its field, and its predicate is its test together with its operand. -/
theorem State.predicate_of_view (table : AliasTable) :
    state.predicate (.node mark operator [operand]) table =
      (filterLiteral operator test (table.register field.name false).1 word caseSensitive >>= fun made =>
        withOperand (.compare (table.register field.name false).1 made.1 made.2 caseSensitive)
          (operand, state.predicate operand) (table.register field.name false).2) := by
  rw [State.predicate, State.predicateWithin_eq_lower, lower_node, Operator.view_map, reads]
  show (liftM (filterLiteral operator test (table.register field.name false).1 word caseSensitive) >>=
    fun made => withOperand (.compare (table.register field.name false).1 made.1 made.2 caseSensitive)
      _ : Compiling Predicate) (table.register field.name false).2 = _
  cases filterLiteral operator test (table.register field.name false).1 word caseSensitive <;> rfl

/-- A filter for a word that asks for no more than another of the same property and operand is compiled if
the other is, and selects whatever that does. -/
theorem State.exists_compile_weaker {test' : FilterTest} {word' : String} {caseSensitive' : Bool}
    {operator' : Operator} {mark' : Mark}
    (reads' : operator'.view [operand] = .ok (.filter test' field word' caseSensitive' operand))
    (wordy : test'.isNumeric = false) {defaultBase : String} {params : QueryParams} {query : CompiledQuery}
    (compiled : state.compile defaultBase (.node mark operator [operand]) params = .ok query) :
    ∃ query', state.compile defaultBase (.node mark' operator' [operand]) params = .ok query' ∧
      ∀ medium, ((Condition.compares test field.name word caseSensitive).judge medium = .ok (some true) →
          (Condition.compares test' field.name word' caseSensitive').judge medium = .ok (some true)) →
        query.selects medium = .ok true → query'.selects medium = .ok true := by
  let registered := AliasTable.register { defaultBase } field.name false
  have shows : registered.1.Shows field.name := (AliasTable.Coherent.empty defaultBase).shows_register ..
  rw [State.compile_eq (Tree.peel_of_view reads), State.predicate_of_view reads] at compiled
  obtain ⟨⟨predicate, after⟩, lowers, rfl⟩ := Except.map_eq_ok.1 compiled
  obtain ⟨made, compares, lowers⟩ := Except.bind_eq_ok.1 lowers
  obtain ⟨around, encloses, rfl, same⟩ := withOperand_eq_ok lowers
  obtain ⟨comparison', literal', compares'⟩ :=
    exists_filterLiteral_word operator' wordy registered.1 word' caseSensitive'
  have lowers' : state.predicate (.node mark' operator' [operand]) { defaultBase } =
      .ok (around (.compare registered.1 comparison' literal' caseSensitive'), after) := by
    rw [State.predicate_of_view reads']
    exact Except.bind_eq_ok.2 ⟨_, compares', same _⟩
  rw [State.compile_eq (Tree.peel_of_view reads'), lowers']
  refine ⟨_, rfl, fun medium implies selected => ?_⟩
  obtain ⟨joins, holds⟩ := CompiledQuery.selects_eq_true.1 selected
  refine CompiledQuery.selects_eq_true.2 ⟨joins, encloses.evaluate_mono (fun tested => ?_) holds⟩
  rw [Predicate.evaluate_compare shows compares] at tested
  rw [Predicate.evaluate_compare shows compares']
  exact implies tested

end

section

variable {mark : Mark} {operator : Operator} {whole : Node} {test : FilterTest} {field word : String}
  {caseSensitive : Bool}

/-- The query of a filter for a word in the whole library is the test of the filter on the media that have
its property. -/
theorem State.exists_compile_of_view (state : State)
    (reads : operator.view [whole] = .ok (.filter test (.property field) word caseSensitive whole))
    (everything : whole.isEverything = true) (wordy : test.isNumeric = false) (property : field ≠ "id")
    (defaultBase : String) (params : QueryParams) :
    ∃ query, state.compile defaultBase (.node mark operator [whole]) params = .ok query ∧
      (∀ medium, query.predicate.evaluate medium =
        (Condition.compares test field word caseSensitive).judge medium) ∧
      ∀ medium, medium.properties.contains field = true → query.joinsMedium medium = true := by
  let registered := AliasTable.register { defaultBase } field false
  have shows : registered.1.Shows field := (AliasTable.Coherent.empty defaultBase).shows_register ..
  obtain ⟨comparison, literal, compares⟩ :=
    exists_filterLiteral_word operator wordy registered.1 word caseSensitive
  have lowers : state.predicate (.node mark operator [whole]) { defaultBase } =
      .ok (.compare registered.1 comparison literal caseSensitive,
        AliasTable.askAll { defaultBase } [.compares test field word caseSensitive]) := by
    rw [State.predicate_of_view reads]
    refine Except.bind_eq_ok.2 ⟨_, compares, ?_⟩
    rw [withOperand, if_pos everything]
    rfl
  rw [State.compile_eq (Tree.peel_of_view reads), lowers]
  refine ⟨_, rfl, Predicate.evaluate_compare shows compares, fun medium owns => ?_⟩
  have needed : (Condition.compares test field word caseSensitive).needed? = some field :=
    Condition.needed?_eq_some.2 ⟨rfl, rfl, property⟩
  refine (CompiledQuery.joinsMedium_iff_fetched rfl).2
    ⟨fun condition asked property needs => ?_, fun isDefault _ => ?_⟩
  · obtain rfl := List.mem_singleton.1 asked
    obtain rfl := Option.some.inj (needed.symm.trans needs)
    exact owns
  · rwa [← isDefault, CompiledQuery.baseField_of_first needed]

/-- A filter for a word in the whole library selects the media that it is true of. -/
theorem State.exists_compile_selects (state : State)
    (reads : operator.view [whole] = .ok (.filter test (.property field) word caseSensitive whole))
    (everything : whole.isEverything = true) (wordy : test.isNumeric = false) (property : field ≠ "id")
    (defaultBase : String) (params : QueryParams) :
    ∃ query, state.compile defaultBase (.node mark operator [whole]) params = .ok query ∧
      ∀ medium, query.selects medium = .ok true ↔
        (Condition.compares test field word caseSensitive).judge medium = .ok (some true) := by
  obtain ⟨query, compiled, evaluates, joins⟩ :=
    state.exists_compile_of_view reads everything wordy property defaultBase params
  refine ⟨query, compiled, fun medium => ?_⟩
  rw [CompiledQuery.selects_eq_true, evaluates, and_iff_right_iff_imp]
  intro judged
  obtain ⟨value, has, -⟩ := Condition.judge_eq_true.1 judged
  rw [Medium.field?, if_neg property] at has
  exact joins medium (by rw [SortedMap.contains, has]; rfl)

end

end Medley
