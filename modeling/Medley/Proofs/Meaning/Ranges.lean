import Medley.Proofs.Meaning.Filtering
import Medley.Proofs.Meaning.Unions
import Medley.Proofs.Pattern.Derivations

/-!
# Sequences of ids

A number sign before a sequence of numbers selects media by their ids.  Each element of the sequence is a
number, or a range whose bounds belong to it and may be left out.  Ranges are compiled to strict comparisons
with the numbers next to their bounds, so a bound that has none among the numbers of 64 bits makes the whole
sequence fail.  Of all other sequences the query is true for just the ids that an element contains, and false
for the rest (`Pattern.ids_select`).
-/

namespace Medley

namespace Pattern

/-! ## Elements of sequences -/

/-- Whether 64 bits with a sign hold a number. -/
def IsInt64 (number : Int) : Prop :=
  Int64.minValue.toInt ≤ number ∧ number ≤ Int64.maxValue.toInt

/-- Whether a text writes a bound of a certain kind or is left out. -/
def Bounds (text : List Char) (holds : Int → Prop) : Prop :=
  text = [] ∨ ∃ bound ∈ Text.readInteger? text, holds bound

/-- Whether a number belongs to an element of a sequence: it is the number that is written, or it lies
between the bounds on both sides of the first minus sign, which belong to the range. -/
def Contains (element : List Char) (number : Int) : Prop :=
  match Text.splitFirst? '-' element with
  | none => Text.readInteger? element = some number
  | some (first, last) => Bounds first (· ≤ number) ∧ Bounds last (number ≤ ·)

/-- Whether an element of a sequence can be compared with: a number of 64 bits, or a range with a bound at
least, where the numbers just outside of it have 64 bits too. -/
def Fits (element : List Char) : Prop :=
  match Text.splitFirst? '-' element with
  | none => ∃ number ∈ Text.readInteger? element, IsInt64 number
  | some (first, last) =>
      (first ≠ [] ∨ last ≠ []) ∧ Bounds first (fun lower => IsInt64 lower ∧ IsInt64 (lower - 1)) ∧
        Bounds last fun upper => IsInt64 upper ∧ IsInt64 (upper + 1)

instance (number : Int) : Decidable (IsInt64 number) := inferInstanceAs (Decidable (_ ∧ _))

instance (text : List Char) (holds : Int → Prop) [DecidablePred holds] : Decidable (Bounds text holds) :=
  inferInstanceAs (Decidable (_ ∨ _))

instance (element : List Char) (number : Int) : Decidable (Contains element number) :=
  match split : Text.splitFirst? '-' element with
  | none => decidable_of_iff (Text.readInteger? element = some number) (by rw [Contains, split])
  | some (first, last) => decidable_of_iff (Bounds first (· ≤ number) ∧ Bounds last (number ≤ ·))
      (by rw [Contains, split])

instance (element : List Char) : Decidable (Fits element) :=
  match split : Text.splitFirst? '-' element with
  | none => decidable_of_iff (∃ number ∈ Text.readInteger? element, IsInt64 number) (by rw [Fits, split])
  | some (first, last) => decidable_of_iff
      ((first ≠ [] ∨ last ≠ []) ∧ Bounds first (fun lower => IsInt64 lower ∧ IsInt64 (lower - 1)) ∧
        Bounds last fun upper => IsInt64 upper ∧ IsInt64 (upper + 1)) (by rw [Fits, split])

section Elements

variable {field : SequenceField} {text first last : List Char} {holds : Int → Prop} {bound : Int64}
  {number : Int}

theorem isInt64_iff : IsInt64 number ↔ ∃ id : Int64, id.toInt = number := by
  constructor
  · rintro ⟨least, most⟩
    exact ⟨.ofInt number, Int64.toInt_ofInt_of_le least (Int.lt_of_le_of_lt most (by decide))⟩
  · rintro ⟨id, rfl⟩
    exact ⟨id.minValue_le_toInt, id.toInt_le⟩

theorem isInt64_toInt (id : Int64) : IsInt64 id.toInt := isInt64_iff.2 ⟨id, rfl⟩

/-- All numbers of 64 bits but the least have one below. -/
theorem toInt_sub_one (bounded : bound ≠ Int64.minValue) : (bound - 1).toInt = bound.toInt - 1 := by
  have least : bound.toInt ≠ Int64.minValue.toInt := fun same => bounded (Int64.toInt_inj.1 same)
  have above := bound.minValue_le_toInt
  have below := bound.toInt_le
  simp only [Int64.toInt_minValue, Int64.toInt_maxValue] at least above below
  rw [Int64.toInt_sub, show (1 : Int64).toInt = 1 from rfl]
  exact Int.bmod_eq_of_le (by omega) (by omega)

theorem toInt_add_one (bounded : bound ≠ Int64.maxValue) : (bound + 1).toInt = bound.toInt + 1 := by
  have most : bound.toInt ≠ Int64.maxValue.toInt := fun same => bounded (Int64.toInt_inj.1 same)
  have above := bound.minValue_le_toInt
  have below := bound.toInt_le
  simp only [Int64.toInt_minValue, Int64.toInt_maxValue] at most above below
  rw [Int64.toInt_add, show (1 : Int64).toInt = 1 from rfl]
  exact Int.bmod_eq_of_le (by omega) (by omega)

theorem isInt64_sub_one : IsInt64 (bound.toInt - 1) ↔ bound ≠ Int64.minValue := by
  constructor
  · rintro ⟨least, -⟩ rfl
    omega
  · intro bounded
    exact toInt_sub_one bounded ▸ isInt64_toInt _

theorem isInt64_add_one : IsInt64 (bound.toInt + 1) ↔ bound ≠ Int64.maxValue := by
  constructor
  · rintro ⟨-, most⟩ rfl
    omega
  · intro bounded
    exact toInt_add_one bounded ▸ isInt64_toInt _

theorem readInteger?_of_readInt64? (reads : Text.readInt64? (String.ofList text) = some bound) :
    Text.readInteger? text = some bound.toInt := by
  rw [← String.toList_ofList (l := text)]
  exact Text.readInt64?_eq_some.1 reads

theorem bounds_of_reads (reads : Text.readInt64? (String.ofList text) = some bound) :
    Bounds text holds ↔ holds bound.toInt := by
  have written := readInteger?_of_readInt64? reads
  constructor
  · rintro (rfl | ⟨other, reads', holds⟩)
    · cases written
    · obtain rfl := Option.some.inj (written.symm.trans reads')
      exact holds
  · exact fun holds => .inr ⟨_, written, holds⟩

theorem bounds_nil : Bounds [] holds := .inl rfl

theorem contains_range (plain : '-' ∉ first) : Contains (first ++ '-' :: last) number ↔
    Bounds first (· ≤ number) ∧ Bounds last (number ≤ ·) := by
  rw [Contains, Text.splitFirst?_append plain]

theorem contains_number (plain : '-' ∉ text) :
    Contains text number ↔ Text.readInteger? text = some number := by
  rw [Contains, Text.splitFirst?_eq_none_iff.2 plain]

/-- Bounds with a property that only numbers of 64 bits have are read as such. -/
theorem exists_of_bounds (bounds : Bounds text fun bound => IsInt64 bound ∧ holds bound) :
    text = [] ∨ ∃ bound : Int64, Text.readInt64? (String.ofList text) = some bound ∧
      holds bound.toInt := by
  refine bounds.imp_right ?_
  rintro ⟨number, reads, fits, holds⟩
  obtain ⟨bound, rfl⟩ := isInt64_iff.1 fits
  exact ⟨bound, Text.readInt64?_eq_some.2 (by rwa [String.toList_ofList]), holds⟩

/-- The elements that can be compared with are those that describe a collection. -/
theorem exists_element_iff : (∃ shape, Element field text shape) ↔ Fits text := by
  constructor
  · rintro ⟨shape, element⟩
    cases element with
    | number plain reads =>
        rw [Fits, Text.splitFirst?_eq_none_iff.2 plain]
        exact ⟨_, readInteger?_of_readInt64? reads, isInt64_toInt _⟩
    | since plain reads bounded =>
        rw [Fits, Text.splitFirst?_append plain]
        refine ⟨.inl ?_, (bounds_of_reads reads).2 ⟨isInt64_toInt _, isInt64_sub_one.2 bounded⟩, bounds_nil⟩
        rintro rfl
        cases reads
    | «until» reads bounded =>
        rw [Fits, ← List.nil_append ('-' :: _), Text.splitFirst?_append List.not_mem_nil]
        refine ⟨.inr ?_, bounds_nil, (bounds_of_reads reads).2 ⟨isInt64_toInt _, isInt64_add_one.2 bounded⟩⟩
        rintro rfl
        cases reads
    | range plain readsLower boundedLower readsUpper boundedUpper =>
        rw [Fits, Text.splitFirst?_append plain]
        refine ⟨.inl ?_, (bounds_of_reads readsLower).2 ⟨isInt64_toInt _, isInt64_sub_one.2 boundedLower⟩,
          (bounds_of_reads readsUpper).2 ⟨isInt64_toInt _, isInt64_add_one.2 boundedUpper⟩⟩
        rintro rfl
        cases readsLower
  · intro fits
    unfold Fits at fits
    split at fits
    · next plain =>
      obtain ⟨number, reads, isInt64⟩ := fits
      obtain ⟨value, rfl⟩ := isInt64_iff.1 isInt64
      exact ⟨_, .number (Text.splitFirst?_eq_none_iff.1 plain)
        (Text.readInt64?_eq_some.2 (by rwa [String.toList_ofList]))⟩
    · next first last split =>
      obtain ⟨rfl, plain⟩ := Text.eq_of_splitFirst? split
      obtain ⟨some, lower, upper⟩ := fits
      rcases exists_of_bounds lower, exists_of_bounds upper with
        ⟨rfl | ⟨lower, readsLower, boundedLower⟩, rfl | ⟨upper, readsUpper, boundedUpper⟩⟩
      · simp at some
      · exact ⟨_, .until readsUpper (isInt64_add_one.1 boundedUpper)⟩
      · exact ⟨_, .since plain readsLower (isInt64_sub_one.1 boundedLower)⟩
      · exact ⟨_, .range plain readsLower (isInt64_sub_one.1 boundedLower) readsUpper
          (isInt64_add_one.1 boundedUpper)⟩

end Elements

end Pattern

/-! ## Trees that tell ids apart -/

/-- Whether a filter is certain of every medium, and true of those whose id is accepted. -/
def Condition.Tells (condition : Condition) (accepts : Int64 → Prop) : Prop :=
  ∀ medium, ∃ found, condition.judge medium = .ok (some found) ∧ (found = true ↔ accepts medium.id)

/-- Whether a tree is compiled without a key or a range around it, and certain of every medium: true of
those whose id is accepted. -/
structure State.Tells (state : State) (tree : Node) (accepts : Int64 → Prop) : Prop where
  peels : tree.peel = .ok ⟨[], none, tree⟩
  lowers : Compiling.Total (state.predicate tree)
  judges : ∀ condition ∈ (state.meaning tree).conditions, ∀ medium, condition.Judges medium
  truth (medium : Medium) : ∃ found, (state.meaning tree).truth medium = some found ∧
    (found = true ↔ accepts medium.id)

section Conditions

variable {value : String} {number : Int64}

/-- What a comparison of ids with a number tells. -/
theorem Condition.tells_equals (reads : Text.readInt64? value = some number) :
    (compares .equals "id" value false).Tells (· = number) := by
  intro medium
  refine ⟨decide (medium.id = number), ?_, decide_eq_true_iff⟩
  simp only [judge, Medium.field?, if_pos, judgeValue, isWanted, reads, Value.toInteger?]
  congr 2

theorem Condition.tells_smaller (reads : Text.readInt64? value = some number) :
    (compares .smaller "id" value false).Tells (· < number) := by
  intro medium
  refine ⟨decide (medium.id < number), ?_, decide_eq_true_iff⟩
  simp only [judge, Medium.field?, if_pos, judgeValue, measures, reads, Value.toInteger?]
  rfl

theorem Condition.tells_greater (reads : Text.readInt64? value = some number) :
    (compares .greater "id" value false).Tells (number < ·) := by
  intro medium
  refine ⟨decide (number < medium.id), ?_, decide_eq_true_iff⟩
  simp only [judge, Medium.field?, if_pos, judgeValue, measures, reads, Value.toInteger?]
  rfl

end Conditions

/-- A filter with a number can be compiled. -/
theorem exists_filterLiteral_of_isSome (operator : Operator) (test : FilterTest) (column : Column)
    {value : String} (number : (Text.readInt64? value).isSome) :
    ∃ literal, filterLiteral operator test column value false = .ok literal := by
  obtain ⟨bound, reads⟩ := Option.isSome_iff_exists.1 number
  unfold filterLiteral
  cases test <;> simp [reads]

namespace State.Tells

open Compiling Pattern

variable {state : State} {tree operand : Node} {accepts accepts' : Int64 → Prop}

theorem congr (tells : state.Tells tree accepts) (same : ∀ id, accepts id ↔ accepts' id) :
    state.Tells tree accepts' where
  peels := tells.peels
  lowers := tells.lowers
  judges := tells.judges
  truth medium := (tells.truth medium).imp fun _ => And.imp_right fun isFound => isFound.trans (same _)

/-- The whole library accepts every id. -/
theorem everything (same : tree.shape = Pattern.everything) : state.Tells tree fun _ => True := by
  obtain ⟨mark, operator, operands⟩ := tree
  rw [Tree.shape_node, Pattern.everything, Tree.everything, Tree.leaf, Tree.node.injEq] at same
  obtain ⟨-, rfl, none⟩ := same
  obtain rfl := List.map_eq_nil_iff.1 none
  have means : state.meaning (.node mark { kind := .universe } []) = .everything := by
    rw [State.meaning, State.meaningWithin]
    exact Tree.meaning_everything rfl _
  refine ⟨by rw [Tree.peel_node]; rfl, ?_, ?_, fun medium => ⟨true, ?_, by simp⟩⟩
  · rw [State.predicate, State.predicateWithin_eq_lower, lower_node]
    exact Total.pure Predicate.always
  · rw [means]
    intro condition member
    cases member
  · rw [means]
    rfl

/-- A comparison of ids narrows its operand. -/
theorem filter {test : FilterTest} {value : String} {shape : Shape} {compares : Int64 → Prop}
    (same : tree.shape = SequenceField.id.filter test value shape)
    (number : (Text.readInt64? value).isSome)
    (tests : (Condition.compares test "id" value false).Tells compares)
    (below : ∀ operand, operand.shape = shape → state.Tells operand accepts) :
    state.Tells tree fun id => compares id ∧ accepts id := by
  obtain ⟨mark, operator, operands⟩ := tree
  rw [Tree.shape_node, SequenceField.filter, Tree.unary, Tree.node.injEq] at same
  obtain ⟨-, isFilter, operands⟩ := same
  obtain ⟨operand, rfl, same⟩ := List.map_eq_singleton_iff.1 operands
  have view {ω : Type} (operand : ω) :
      operator.view [operand] = .ok (.filter test .id value false operand) := by
    rw [isFilter]
    refine Operator.view_filter rfl ?_ ?_ ?_ (fun _ => number) operand
    · simp [Operator.get?_withAttributes, Key.type, Key.value]
    · simp [Operator.filterField, Operator.get?_withAttributes, Key.type]
    · simp [Operator.get?_withAttributes, Key.caseSensitive, Key.type, Key.value]
  have means : state.meaning (.node mark operator [operand]) =
      .filtered (.compares test "id" value false) (state.meaning operand) := by
    rw [State.meaning, State.meaningWithin, Tree.meaning_of_view (view _)]
    rfl
  have tells := below operand same
  refine ⟨Tree.peel_of_view (view operand), fun table => ?_, ?_, fun medium => ?_⟩
  · obtain ⟨literal, compares⟩ := exists_filterLiteral_of_isSome operator test
      (table.register "id" false).1 number
    have lowers : Total (withOperand
        (.compare (table.register "id" false).1 literal.1 literal.2 false)
        (operand, state.predicate operand)) := by
      unfold withOperand
      split
      · exact Total.pure _
      · exact tells.lowers.bind fun inner => Total.pure _
    obtain ⟨result, ends⟩ := lowers (table.register "id" false).2
    exact ⟨result, (State.predicate_of_view (view operand) table).trans
      (Except.bind_eq_ok.2 ⟨literal, compares, ends⟩)⟩
  · rw [means]
    rintro condition (_ | ⟨_, member⟩) medium
    · obtain ⟨found, judged, -⟩ := tests medium
      exact ⟨_, judged⟩
    · exact tells.judges condition member medium
  · obtain ⟨found, judged, isFound⟩ := tests medium
    obtain ⟨found', truth, isFound'⟩ := tells.truth medium
    refine ⟨found && found', ?_, by rw [Bool.and_eq_true, isFound, isFound']⟩
    rw [means]
    show (Condition.truth _ medium).and _ = _
    rw [Condition.truth, judged, truth]
    cases found <;> cases found' <;> rfl

/-- A union accepts what one of its operands does. -/
theorem union {ι : Type} {accepts : ι → Int64 → Prop} {items : List ι} {operator : Operator}
    {operands : List Node} {mark : Mark} (isUnion : operator.kind = .union) (nonempty : operands ≠ [])
    (tell : List.Forall₂ (fun operand item => state.Tells operand (accepts item)) operands items) :
    state.Tells (.node mark operator operands) fun id => ∃ item ∈ items, accepts item id := by
  have means := @State.meaning_union state operator operands mark isUnion nonempty
  refine ⟨?_, ?_, ?_, fun medium => ?_⟩
  · rw [Tree.peel_node, Operator.view_of_union isUnion nonempty]
    rfl
  · rw [State.predicate, State.predicateWithin_eq_lower]
    refine Tree.total_lower_commuting (.inl isUnion) nonempty fun operand member => ?_
    obtain ⟨item, -, tells⟩ := exists_of_mem_left tell member
    exact tells.lowers
  · rw [State.conditions_union isUnion nonempty]
    intro condition member
    obtain ⟨operand, inside, member⟩ := List.mem_flatMap.1 member
    obtain ⟨item, -, tells⟩ := exists_of_mem_left tell inside
    exact tells.judges condition member
  · rw [means]
    clear means nonempty
    induction tell with
    | nil => exact ⟨false, rfl, by simp⟩
    | @cons operand item operands items tells others ih =>
        obtain ⟨found, truth, isFound⟩ := tells.truth medium
        obtain ⟨found', truth', isFound'⟩ := ih
        refine ⟨found || found', ?_, by simp [isFound, isFound']⟩
        show ((state.meaning operand).truth medium).or
          ((Meaning.any (operands.map state.meaning)).truth medium) = _
        rw [truth, truth']
        cases found <;> cases found' <;> rfl

end State.Tells

/-! ## Sequences -/

namespace Pattern

variable {state : State} {tree : Node}

/-- An element of a sequence of ids accepts the numbers that it contains. -/
theorem Element.tells {text : List Char} (element : Element .id text tree.shape) :
    state.Tells tree fun id => Contains text id.toInt := by
  generalize isShape : tree.shape = shape at element
  cases element with
  | number plain reads =>
      refine (State.Tells.filter isShape (by simp [reads]) (Condition.tells_equals reads)
        fun operand => .everything).congr fun id => ?_
      rw [contains_number plain, readInteger?_of_readInt64? reads, and_true, Option.some_inj,
        Int64.toInt_inj, eq_comm]
  | @since first lower plain reads bounded =>
      refine (State.Tells.filter isShape (by simp)
        (Condition.tells_greater (Text.readInt64?_writeInt64 _)) fun operand => .everything).congr fun id => ?_
      rw [contains_range plain, bounds_of_reads reads, Int64.lt_iff_toInt_lt, toInt_sub_one bounded]
      simp only [bounds_nil, and_true]
      omega
  | @«until» last upper reads bounded =>
      refine (State.Tells.filter isShape (by simp)
        (Condition.tells_smaller (Text.readInt64?_writeInt64 _)) fun operand => .everything).congr fun id => ?_
      rw [← List.nil_append ('-' :: last), contains_range List.not_mem_nil, bounds_of_reads reads,
        Int64.lt_iff_toInt_lt, toInt_add_one bounded]
      simp only [bounds_nil, and_true, true_and]
      omega
  | @range first last lower upper plain readsLower boundedLower readsUpper boundedUpper =>
      refine (State.Tells.filter isShape (by simp)
        (Condition.tells_smaller (Text.readInt64?_writeInt64 _)) fun operand same =>
          State.Tells.filter same (by simp) (Condition.tells_greater (Text.readInt64?_writeInt64 _))
            fun operand => .everything).congr fun id => ?_
      rw [contains_range plain, bounds_of_reads readsLower, bounds_of_reads readsUpper,
        Int64.lt_iff_toInt_lt, Int64.lt_iff_toInt_lt, toInt_sub_one boundedLower,
        toInt_add_one boundedUpper]
      simp only [and_true]
      omega

/-- The union of what some elements describe accepts what one of them contains. -/
theorem combine_tells {texts : List (List Char)} {shapes : List Shape} (nonempty : texts ≠ [])
    (elements : List.Forall₂ (Element .id) texts shapes) (same : tree.shape = combine .union shapes) :
    state.Tells tree fun id => ∃ element ∈ texts, Contains element id.toInt := by
  unfold combine at same
  split at same
  · next shape =>
    obtain ⟨text, others, element, none, rfl⟩ := List.forall₂_cons_right_iff.1 elements
    obtain rfl := List.forall₂_nil_right_iff.1 none
    simpa using Element.tells (same ▸ element)
  · obtain ⟨mark, operator, operands⟩ := tree
    rw [Tree.shape_node, Tree.node.injEq] at same
    obtain ⟨-, rfl, rfl⟩ := same
    rw [List.forall₂_map_right_iff] at elements
    refine State.Tells.union rfl (fun none => ?_) (elements.flip.imp fun _ _ => Element.tells)
    subst none
    exact nonempty (List.forall₂_nil_right_iff.1 elements)

theorem splitAll_ne_nil (separator : Char) (text : List Char) : Text.splitAll separator text ≠ [] := by
  cases text with
  | nil => exact List.cons_ne_nil _ _
  | cons char rest =>
      rw [Text.splitAll]
      split
      · exact List.cons_ne_nil _ _
      · split <;> exact List.cons_ne_nil _ _

/-- Whether a sequence can be read depends on its elements. -/
theorem exists_elements_iff {field : SequenceField} {text : List Char} :
    (∃ shapes, Elements field text shapes) ↔ ∀ element ∈ Text.splitAll ',' text, Fits element := by
  simp only [← elements_iff, List.mapM_eq_some, sequenceElement?_eq_some]
  constructor
  · rintro ⟨shapes, elements⟩ element member
    obtain ⟨shape, -, describes⟩ := exists_of_mem_left elements member
    exact exists_element_iff.1 ⟨shape, describes⟩
  · exact fun fit => exists_forall₂ fun element member => exists_element_iff.2 (fit element member)

section

variable {sign token : Token} (hash : sign.kind = .symbolId)
  (numbers : token.kind = .integer ∨ token.kind = .sequence)

include hash

theorem ids_cons (rest : List Token) : ids (sign :: token :: rest) =
    (sequenceOf? .id token).map fun shape => (shape, rest) := by
  rw [ids, if_pos hash]

/-- No other expression begins with a number sign. -/
theorem phrase_of_ids_eq_none {fields : List String} {tokens : List Token}
    (refused : ids (sign :: tokens) = none) : phrase fields (sign :: tokens) = none := by
  have expression (depth : Nat) : expressionWithin fields depth (sign :: tokens) = none := by
    have simple : simple fields (sign :: tokens) = none := by
      rw [simple_cons, hash]
      exact refused
    cases depth with
    | zero => exact simple
    | succ depth =>
        have group : group (expressionWithin fields depth) (sign :: tokens) = none := by
          rw [group, if_neg (by rw [hash]; decide)]
        have negation : negation (expressionWithin fields depth) (sign :: tokens) = none := by
          rw [negation, if_neg (by rw [hash]; decide)]
        rw [expressionWithin, simple, group, negation]
        rfl
  rw [phrase, operation, orChain, expression]
  rfl

include numbers

/-- A sequence of ids is read if all its elements fit, and refused as a whole otherwise.  The query of a
sequence that is read is certain of every medium: it is true of those with an id that an element contains,
bounds included, and false of the rest. -/
theorem ids_select (rest : List Token) (fields : List String) (pattern : String) :
    let elements := Text.splitAll ',' token.text.toList
    ((∀ element ∈ elements, Fits element) → ∃ shape,
      ids (sign :: token :: rest) = some (shape, rest) ∧
      build fields pattern [sign, token] = .ok shape ∧
      ∀ (state : State) (tree : Node) (defaultBase : String) (params : QueryParams), tree.shape = shape →
        ∃ query, state.compile defaultBase tree params = .ok query ∧
          ∀ medium, ∃ found, query.predicate.evaluate medium = .ok (some found) ∧
            (found = true ↔ ∃ element ∈ elements, Contains element medium.id.toInt)) ∧
    ((∃ element ∈ elements, ¬ Fits element) →
      ids (sign :: token :: rest) = none ∧
      build fields pattern [sign, token] = .error
        { cause := .malformedPattern pattern .notAPattern, position := .atOffset sign.offset }) := by
  intro elements
  refine ⟨fun fit => ?_, fun ⟨element, member, unfit⟩ => ?_⟩
  · obtain ⟨shapes, describe⟩ := exists_elements_iff.2 fit
    have sequence := sequenceOf?_eq_some.2 ⟨numbers, shapes, describe, rfl⟩
    have phrases : phrase fields [sign, token] = some (combine .union shapes, []) :=
      phrase_eq_some_iff.2 ⟨[_], .single (.single (.simple (.ids hash numbers describe))), rfl⟩
    refine ⟨combine .union shapes, by rw [ids_cons hash, sequence]; rfl, by rw [build, phrases],
      fun state tree defaultBase params same => ?_⟩
    have each := (List.mapM_eq_some.1 (elements_iff.2 describe)).imp
      fun element shape => sequenceElement?_eq_some.1
    have tells : state.Tells tree fun id => ∃ element ∈ elements, Contains element id.toInt :=
      combine_tells (splitAll_ne_nil _ _) each same
    obtain ⟨query, compiled, -⟩ := State.exists_compile_of_total tells.peels tells.lowers defaultBase params
    obtain ⟨peeled, predicate, decides, rfl⟩ := State.exists_assemble compiled
    refine ⟨_, compiled, fun medium => ?_⟩
    obtain ⟨found, truth, isFound⟩ := tells.truth medium
    refine ⟨found, ?_, isFound⟩
    rw [← truth]
    exact decides medium fun condition member => tells.judges condition member medium
  · have refused (rest : List Token) : ids (sign :: token :: rest) = none := by
      rw [ids_cons hash, Option.map_eq_none_iff, Option.eq_none_iff_forall_ne_some]
      intro shape reads
      obtain ⟨-, shapes, describe, -⟩ := sequenceOf?_eq_some.1 reads
      exact unfit (exists_elements_iff.1 ⟨shapes, describe⟩ element member)
    refine ⟨refused rest, ?_⟩
    rw [build, phrase_of_ids_eq_none hash (refused [])]
    rfl

end

/-- Ranges with one bound and with two, and one of which the upper bound has no number above it. -/
theorem ids_select_ranges :
    let sign : Token := ⟨.symbolId, "", 0⟩
    let token : Token := ⟨.sequence, "1,4-6,9-", 1⟩
    let outside : Token := ⟨.sequence, "1,4-9223372036854775807", 1⟩
    (sign.kind = .symbolId ∧ (token.kind = .integer ∨ token.kind = .sequence)) ∧
    (∃ shape, build defaultFields "#1,4-6,9-" [sign, token] = .ok shape ∧
      ∀ (state : State) (tree : Node), tree.shape = shape →
        ∃ query, state.compile "title" tree {} = .ok query ∧
          query.predicate.evaluate ⟨6, .empty⟩ = .ok (some true) ∧
          query.predicate.evaluate ⟨7, .empty⟩ = .ok (some false)) ∧
    build defaultFields "#1,4-9223372036854775807" [sign, outside] = .error
      { cause := .malformedPattern "#1,4-9223372036854775807" .notAPattern, position := .atOffset 0 } := by
  intro sign token outside
  have fit : ∀ element ∈ Text.splitAll ',' token.text.toList, Fits element := by decide
  have unfit : ∃ element ∈ Text.splitAll ',' outside.text.toList, ¬ Fits element := by decide
  have six : ∃ element ∈ Text.splitAll ',' token.text.toList, Contains element 6 := by decide
  have seven : ¬ ∃ element ∈ Text.splitAll ',' token.text.toList, Contains element 7 := by decide
  refine ⟨⟨rfl, .inr rfl⟩, ?_, ((ids_select rfl (.inr rfl) [] defaultFields _).2 unfit).2⟩
  obtain ⟨shape, -, built, selects⟩ :=
    (@ids_select sign token rfl (.inr rfl) [] defaultFields "#1,4-6,9-").1 fit
  refine ⟨shape, built, fun state tree same => ?_⟩
  obtain ⟨query, compiled, evaluates⟩ := selects state tree "title" {} same
  refine ⟨query, compiled, ?_, ?_⟩
  · obtain ⟨found, evaluates, isFound⟩ := evaluates ⟨6, .empty⟩
    rw [evaluates, isFound.2 six]
  · obtain ⟨found, evaluates, isFound⟩ := evaluates ⟨7, .empty⟩
    cases found with
    | false => exact evaluates
    | true => exact absurd (isFound.1 rfl) seven

end Pattern

end Medley
