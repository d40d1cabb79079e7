import Medley.Proofs.Sql.Outline

/-!
# Collections that differ in names and texts

Collections correspond if they are the same but for the names of their fields and the texts that filters
compare with (`Tree.Corresponds`).  As long as the names keep the same fields apart, operators that
correspond are read alike (`Operator.Corresponds.exists_view`), and fields that correspond are given the
same numbers (`AliasTable.Corresponds.register`).
-/

namespace Medley

open Sql

/-- Whether two ways to name fields keep the same ones apart, and the id is called so in both. -/
structure TellsApart (names : String → String → Prop) : Prop where
  eq_iff : ∀ {field field' other other'}, names field field' → names other other' →
    (field = other ↔ field' = other')
  id : names "id" "id"

variable {names : String → String → Prop}

/-! ## Alias tables -/

/-- Whether aliases are the same but for their fields. -/
structure Alias.Corresponds (names : String → String → Prop) (entry entry' : Alias) : Prop where
  field : names entry.field entry'.field
  number : entry'.number = entry.number
  kind : entry'.kind = entry.kind
  isOptional : entry'.optional = entry.optional
  isId : entry.kind = .id → entry.field = "id"

/-- Whether the column of a field is written like another one, and is that of the id only for the id. -/
structure Column.Corresponds (field : String) (column column' : Column) : Prop where
  tokens : column'.tokens = column.tokens
  isId : column = .id → field = "id"

theorem Alias.Corresponds.column {entry entry' : Alias} (corresponds : entry.Corresponds names entry') :
    Column.Corresponds entry.field entry.column entry'.column := by
  unfold Alias.column
  rw [corresponds.kind]
  cases kind : entry.kind with
  | id => exact ⟨rfl, fun _ => corresponds.isId kind⟩
  | property => exact ⟨by simp only [Column.tokens, corresponds.number], nofun⟩

theorem Column.Corresponds.eq_id_iff {field : String} {column column' : Column}
    (corresponds : Column.Corresponds field column column') : column' = .id ↔ column = .id := by
  have same := corresponds.tokens
  cases column <;> cases column' <;> simp_all [Column.tokens]

/-- Whether orders sort by the same but for the names of fields. -/
inductive SortField.Corresponds (names : String → String → Prop) : SortField → SortField → Prop where
  | id : Corresponds names .id .id
  | random : Corresponds names .random .random
  | property {name name' : String} (same : names name name') :
      Corresponds names (.property name) (.property name')

/-- Whether requests sort by the same in the same direction. -/
def Sorts (names : String → String → Prop) (order order' : SortField × Direction) : Prop :=
  order.1.Corresponds names order'.1 ∧ order'.2 = order.2

namespace AliasTable

/-- Whether tables are the same but for the fields. -/
structure Corresponds (names : String → String → Prop) (table table' : AliasTable) : Prop where
  defaultBase : names table.defaultBase table'.defaultBase
  aliases : List.Forall₂ (Alias.Corresponds names) table.aliases table'.aliases
  next : table'.next = table.next
  base : Option.Rel names table.base table'.base

namespace Corresponds

variable {table table' : AliasTable} {field field' : String}

theorem empty {defaultBase defaultBase' : String} (same : names defaultBase defaultBase') :
    Corresponds names { defaultBase } { defaultBase := defaultBase' } :=
  ⟨same, .nil, rfl, .none⟩

theorem push {entry entry' : Alias} (corresponds : table.Corresponds names table')
    (new : entry.Corresponds names entry') : (table.push entry).Corresponds names (table'.push entry') where
  defaultBase := corresponds.defaultBase
  aliases := List.rel_append corresponds.aliases (.cons new .nil)
  next := corresponds.next
  base := corresponds.base

variable (apart : TellsApart names)
include apart

theorem find? (corresponds : table.Corresponds names table') (same : names field field') :
    Option.Rel (Alias.Corresponds names) (table.find? field) (table'.find? field') :=
  rel_find? corresponds.aliases fun entry entry' alike => by
    rw [Bool.eq_iff_iff, beq_iff_eq, beq_iff_eq]
    exact apart.eq_iff alike.field same

theorem require (corresponds : table.Corresponds names table') (same : names field field') :
    (table.require field).Corresponds names (table'.require field') where
  defaultBase := corresponds.defaultBase
  aliases := by
    refine List.rel_map (fun entry entry' alike => ?_) corresponds.aliases
    have named : entry.field = field ↔ entry'.field = field' := apart.eq_iff alike.field same
    by_cases here : entry.field = field
    · rw [if_pos here, if_pos (named.1 here)]
      exact ⟨alike.field, alike.number, alike.kind, rfl, alike.isId⟩
    · rw [if_neg here, if_neg fun here' => here (named.2 here')]
      exact alike
  next := corresponds.next
  base := corresponds.base

theorem register (corresponds : table.Corresponds names table') (same : names field field')
    (isOptional : Bool) :
    Column.Corresponds field (table.register field isOptional).1 (table'.register field' isOptional).1 ∧
      (table.register field isOptional).2.Corresponds names (table'.register field' isOptional).2 := by
  have found := corresponds.find? apart same
  have isId : field = "id" ↔ field' = "id" := apart.eq_iff same apart.id
  have becomes : (table.base = none ∧ (isOptional = false ∨ field = table.defaultBase)) ↔
      table'.base = none ∧ (isOptional = false ∨ field' = table'.defaultBase) := by
    rw [apart.eq_iff same corresponds.defaultBase, rel_none_iff corresponds.base]
  unfold AliasTable.register
  cases first : table.find? field with
  | some entry =>
      obtain ⟨entry', second, alike⟩ := exists_of_rel_some (first ▸ found)
      have named : entry.field = field := (exists_of_find? first).2
      simp only [second]
      refine ⟨named ▸ alike.column, ?_⟩
      cases isOptional with
      | true => exact corresponds
      | false => exact corresponds.require apart same
  | none =>
      simp only [(rel_none_iff found).1 first, ← isId, ← becomes]
      split
      · next isId => exact ⟨⟨rfl, fun _ => isId⟩, corresponds.push ⟨same, rfl, rfl, rfl, fun _ => isId⟩⟩
      · split
        · have based : Corresponds names { table with base := some field }
              { table' with base := some field' } :=
            ⟨corresponds.defaultBase, corresponds.aliases, corresponds.next, .some same⟩
          exact ⟨⟨rfl, nofun⟩, based.push ⟨same, rfl, rfl, rfl, nofun⟩⟩
        · have counted : Corresponds names { table with next := table.next + 1 }
              { table' with next := table'.next + 1 } :=
            ⟨corresponds.defaultBase, corresponds.aliases, congrArg (· + 1) corresponds.next,
              corresponds.base⟩
          refine ⟨⟨?_, nofun⟩, counted.push ⟨same, corresponds.next, rfl, rfl, nofun⟩⟩
          simp only [Column.tokens, corresponds.next]

theorem registerAll (corresponds : table.Corresponds names table') {fields fields' : List String}
    (same : List.Forall₂ names fields fields') :
    (table.registerAll fields).Corresponds names (table'.registerAll fields') := by
  induction same generalizing table table' with
  | nil => exact corresponds
  | cons head _ ih => exact ih (corresponds.register apart head true).2

theorem withBase (corresponds : table.Corresponds names table') :
    table.withBase.Corresponds names table'.withBase := by
  have baseless := rel_none_iff corresponds.base
  unfold AliasTable.withBase
  by_cases none : table.base = none
  · rw [if_pos none, if_pos (baseless.1 none)]
    exact (corresponds.register apart corresponds.defaultBase false).2
  · rw [if_neg none, if_neg fun none' => none (baseless.2 none')]
    exact corresponds

theorem tokens_column (corresponds : table.Corresponds names table') (same : names field field') :
    (table'.column field').tokens = (table.column field).tokens := by
  have found := corresponds.find? apart same
  unfold AliasTable.column
  cases first : table.find? field with
  | some entry =>
      obtain ⟨entry', second, alike⟩ := exists_of_rel_some (first ▸ found)
      rw [second]
      exact alike.column.tokens
  | none => rw [(rel_none_iff found).1 first]

/-- A key of an order is written alike, but for the name of a property that is not joined. -/
theorem blank_orderBy (corresponds : table.Corresponds names table') {order order' : SortField × Direction}
    (sorts : Sorts names order order') :
    (table'.orderBy order'.1 order'.2).tokens.map Token.blank =
      (table.orderBy order.1 order.2).tokens.map Token.blank := by
  obtain ⟨field, direction⟩ := order
  obtain ⟨field', direction'⟩ := order'
  obtain ⟨same, rfl⟩ := sorts
  cases same with
  | id => rfl
  | random => rfl
  | @property name name' same =>
      have found : Option.Rel (Alias.Corresponds names)
          (table.aliases.find? fun entry => entry.field == name && entry.kind == .property)
          (table'.aliases.find? fun entry => entry.field == name' && entry.kind == .property) :=
        rel_find? corresponds.aliases fun entry entry' alike => by
          rw [alike.kind, Bool.eq_iff_iff, Bool.and_eq_true, Bool.and_eq_true, beq_iff_eq (a := entry.field),
            beq_iff_eq (a := entry'.field), apart.eq_iff alike.field same]
      simp only [AliasTable.orderBy]
      generalize table.aliases.find? _ = joined at found
      generalize table'.aliases.find? _ = joined' at found
      cases found with
      | none => simp [OrderBy.tokens, OrderBy.suffix, Token.blank]
      | some alike =>
          simp only [Option.map_some, alike.number]
          rfl

end Corresponds

end AliasTable

/-! ## Predicates -/

/-- Whether literals are the same, or both texts. -/
inductive Literal.Corresponds : Literal → Literal → Prop where
  | integer (value : Int64) : Corresponds (.integer value) (.integer value)
  | text (value value' : String) : Corresponds (.text value) (.text value')

namespace Literal.Corresponds

variable {literal literal' : Literal}

theorem tokens (corresponds : literal.Corresponds literal') :
    literal'.tokens.map Token.blank = literal.tokens.map Token.blank := by
  cases corresponds <;> rfl

theorem foldsCase (corresponds : literal.Corresponds literal') (test : Comparison) (caseSensitive : Bool) :
    Medley.foldsCase test literal' caseSensitive = Medley.foldsCase test literal caseSensitive := by
  cases corresponds <;> cases test <;> rfl

/-- What a column is compared with for equality is an integer only if it is the id. -/
theorem equality {column column' : Column} {value value' : String} :
    (column' = .id ↔ column = .id) →
    (column = .id → Text.readInt64? value' = Text.readInt64? value) →
    Corresponds
      (match column, Text.readInt64? value with
        | .id, some number => .integer number
        | _, _ => .text value)
      (match column', Text.readInt64? value' with
        | .id, some number => .integer number
        | _, _ => .text value') := by
  intro eq_id_iff integers
  cases column with
  | id =>
      obtain rfl := eq_id_iff.2 rfl
      rw [integers rfl]
      cases Text.readInt64? value with
      | none => exact .text value value'
      | some number => exact .integer number
  | value number name =>
      cases column' with
      | id => cases eq_id_iff.1 rfl
      | value number' name' => exact .text value value'

end Literal.Corresponds

namespace Predicate

/-- Whether predicates have the same tokens but for the texts of literals. -/
def Corresponds (predicate predicate' : Predicate) : Prop :=
  predicate'.tokens.map Token.blank = predicate.tokens.map Token.blank

theorem blank_operands {separator : Token} {operands operands' : List Predicate}
    (same : List.Forall₂ Corresponds operands operands') :
    ([separator].intercalate (operands'.map tokens)).map Token.blank =
      ([separator].intercalate (operands.map tokens)).map Token.blank := by
  rw [blank_intercalate, blank_intercalate, List.map_map, List.map_map]
  exact congrArg _ (map_eq_of_forall₂ same fun _ _ holds => holds)

theorem congruence_corresponds : Congruence Corresponds where
  refl _ := rfl
  all same := by simp only [Corresponds, tokens, tokensEach_eq_map, List.map_cons, List.map_append,
    blank_operands same]
  any same := by simp only [Corresponds, tokens, tokensEach_eq_map, List.map_cons, List.map_append,
    blank_operands same]
  not same := by rw [Corresponds, tokens, tokens, List.map_cons, List.map_cons, same]

theorem corresponds_compare {field : String} {column column' : Column} {literal literal' : Literal}
    (columns : Column.Corresponds field column column') (literals : literal.Corresponds literal')
    (test : Comparison) (caseSensitive : Bool) :
    (compare column test literal caseSensitive).Corresponds
      (compare column' test literal' caseSensitive) := by
  simp only [Corresponds, tokens, testTokens, literals.foldsCase, columns.tokens, List.map_append,
    List.map_cons, literals.tokens]

theorem corresponds_has {field : String} {column column' : Column}
    (columns : Column.Corresponds field column column') : (has column).Corresponds (has column') := by
  simp only [Corresponds, tokens, columns.tokens]

end Predicate

/-! ## Operators -/

/-- Whether filters look at the id both, or at properties whose names correspond. -/
inductive Field.Corresponds (names : String → String → Prop) : Field → Field → Prop where
  | id : Corresponds names .id .id
  | property {name name' : String} (same : names name name') :
      Corresponds names (.property name) (.property name')

theorem Field.Corresponds.name {field field' : Field} (corresponds : field.Corresponds names field')
    (apart : TellsApart names) : names field.name field'.name := by
  cases corresponds with
  | id => exact apart.id
  | property same => exact same

namespace Operator

/-- Whether a filter takes a value that is an integer for one: in comparisons by magnitude, and where the
id is compared for equality, as itself or as a property of that name. -/
def comparesInteger (test : FilterTest) (field : Field) : Bool :=
  test.isNumeric || (field.name == "id" && (test == .equals || test == .notEqual))

/-- Where an integer is asked for, it is taken for one. -/
theorem comparesInteger_of_needsInteger {test : FilterTest} {field : Field}
    (needs : needsInteger test field = true) : comparesInteger test field = true := by
  rcases Bool.or_eq_true_iff.1 needs with numeric | equals
  · exact Bool.or_eq_true_iff.2 (.inl numeric)
  · obtain ⟨isId, equals⟩ := Bool.and_eq_true_iff.1 equals
    obtain rfl := beq_iff_eq.1 isId
    exact Bool.or_eq_true_iff.2 (.inr equals)

/-- Whether operators are the same but for the fields that they name and the texts that they compare
with; integers that they compare with are the same. -/
structure Corresponds (names : String → String → Prop) (operator operator' : Operator) : Prop where
  kind : operator'.kind = operator.kind
  ids : operator'.ids = operator.ids
  others : ∀ key, key ≠ Key.field → key ≠ Key.value →
    operator'.attributes.get? key = operator.attributes.get? key
  field : Option.Rel names (operator.attributes.get? Key.field) (operator'.attributes.get? Key.field)
  value : Option.Rel
    (fun value value' => ∀ test field, operator.kind = .filter test → operator.filterField = .ok field →
      comparesInteger test field = true → Text.readInt64? value' = Text.readInt64? value)
    (operator.attributes.get? Key.value) (operator'.attributes.get? Key.value)

end Operator

/-- A filter that corresponds to another one makes the same comparison. -/
theorem exists_filterLiteral_of_corresponds {operator : Operator} (operator' : Operator) {test : FilterTest}
    {field : Field} {column column' : Column} {value value' : String} {caseSensitive : Bool}
    {comparison : Comparison} {literal : Literal}
    (columns : Column.Corresponds field.name column column')
    (integers : Operator.comparesInteger test field = true →
      Text.readInt64? value' = Text.readInt64? value)
    (made : filterLiteral operator test column value caseSensitive = .ok (comparison, literal)) :
    ∃ literal', filterLiteral operator' test column' value' caseSensitive = .ok (comparison, literal') ∧
      literal.Corresponds literal' := by
  have compares : column = .id → (test = .equals ∨ test = .notEqual) →
      Text.readInt64? value' = Text.readInt64? value := by
    rintro isId (rfl | rfl) <;> exact integers (by simp [Operator.comparesInteger, columns.isId isId])
  unfold filterLiteral at made ⊢
  cases test with
  | equals =>
      obtain ⟨rfl, rfl⟩ := Prod.mk.inj (Except.ok.inj made)
      exact ⟨_, rfl, .equality columns.eq_id_iff fun isId => compares isId (.inl rfl)⟩
  | notEqual =>
      obtain ⟨rfl, rfl⟩ := Prod.mk.inj (Except.ok.inj made)
      exact ⟨_, rfl, .equality columns.eq_id_iff fun isId => compares isId (.inr rfl)⟩
  | smaller | smallerEq | greater | greaterEq =>
      simp only [integers rfl] at made ⊢
      cases number : Text.readInt64? value with
      | none => rw [number] at made; cases made
      | some number' =>
          rw [number] at made
          cases made
          exact ⟨_, rfl, .integer number'⟩
  | pattern =>
      cases caseSensitive <;> cases made <;> exact ⟨_, rfl, .text _ _⟩
  | token =>
      cases made
      exact ⟨_, rfl, .text _ _⟩

namespace View

/-- Whether a view names no field. -/
def IsUnnamed {ω : Type} : View ω → Prop
  | .has _ _ | .filter _ _ _ _ _ | .order (.property _) _ _ => False
  | _ => True

/-- Whether views are the same but for the fields that they name and the texts that they compare with. -/
inductive Corresponds {ω : Type} (names : String → String → Prop) : View ω → View ω → Prop where
  | unnamed {view : View ω} (unnamed : view.IsUnnamed) : Corresponds names view view
  | has {field field' : String} (same : names field field') (operand : ω) :
      Corresponds names (.has field operand) (.has field' operand)
  | filter {test : FilterTest} {field field' : Field} {value value' : String}
      (same : names field.name field'.name)
      (integers : Operator.comparesInteger test field = true →
        Text.readInt64? value' = Text.readInt64? value) (caseSensitive : Bool) (operand : ω) :
      Corresponds names (.filter test field value caseSensitive operand)
        (.filter test field' value' caseSensitive operand)
  | order {field field' : String} (same : names field field') (direction : Direction) (operand : ω) :
      Corresponds names (.order (.property field) direction operand)
        (.order (.property field') direction operand)

end View

namespace Operator.Corresponds

variable {ω : Type} {operator operator' : Operator} {operands : List ω} {view : View ω}
  (corresponds : operator.Corresponds names operator')
include corresponds

theorem require (key : String) (other : key ≠ Key.field) (other' : key ≠ Key.value) :
    operator'.require key = operator.require key := by
  rw [Operator.require, Operator.require, corresponds.others key other other', corresponds.kind]

theorem require_field {field : String} (reads : operator.require Key.field = .ok field) :
    ∃ field', operator'.require Key.field = .ok field' ∧ names field field' := by
  unfold Operator.require at reads ⊢
  cases found : operator.attributes.get? Key.field with
  | none => rw [found] at reads; cases reads
  | some name =>
      rw [found] at reads
      cases reads
      obtain ⟨field', found', same⟩ := exists_of_rel_some (found ▸ corresponds.field)
      exact ⟨field', by rw [found'], same⟩

theorem noOperand : operator'.noOperand operands = operator.noOperand operands := by
  cases operands <;> simp only [Operator.noOperand, badArity, corresponds.kind]

theorem oneOperand : operator'.oneOperand operands = operator.oneOperand operands := by
  unfold Operator.oneOperand badArity
  rw [corresponds.kind]

theorem someOperands : operator'.someOperands operands = operator.someOperands operands := by
  cases operands <;> simp only [Operator.someOperands, badArity, corresponds.kind]

theorem count (key : String) (other : key ≠ Key.field) (other' : key ≠ Key.value) :
    operator'.count key = operator.count key := by
  unfold Operator.count badValue
  rw [corresponds.others key other other', corresponds.kind]

theorem listForm (form : ListForm) : operator'.listForm form = operator.listForm form := by
  unfold Operator.listForm badValue
  rw [corresponds.others Key.type (by decide) (by decide), corresponds.kind]

theorem caseSensitivity : operator'.caseSensitivity = operator.caseSensitivity := by
  unfold Operator.caseSensitivity badValue
  rw [corresponds.others Key.caseSensitive (by decide) (by decide), corresponds.kind]

theorem sortDirection : operator'.sortDirection = operator.sortDirection := by
  unfold Operator.sortDirection badValue
  rw [corresponds.others Key.direction (by decide) (by decide), corresponds.kind]

theorem filterField {field : Field} (reads : operator.filterField = .ok field) :
    ∃ field', operator'.filterField = .ok field' ∧ field.Corresponds names field' := by
  have named : ∀ {field}, (operator.require Key.field).map Field.property = .ok field →
      ∃ field', (operator'.require Key.field).map Field.property = .ok field' ∧
        field.Corresponds names field' := by
    intro field reads
    obtain ⟨name, found, rfl⟩ := Except.map_eq_ok.1 reads
    obtain ⟨name', found', same⟩ := corresponds.require_field found
    exact ⟨.property name', by rw [found']; rfl, .property same⟩
  unfold Operator.filterField at reads ⊢
  rw [corresponds.others Key.type (by decide) (by decide)]
  split at reads
  · exact named reads
  · exact named reads
  · cases reads
    exact ⟨.id, rfl, .id⟩
  · cases reads

theorem sortField {field : SortField} (reads : operator.sortField = .ok field) :
    ∃ field', operator'.sortField = .ok field' ∧ field.Corresponds names field' := by
  unfold Operator.sortField at reads ⊢
  rw [corresponds.require Key.type (by decide) (by decide)]
  obtain ⟨type, required, reads⟩ := Except.bind_eq_ok.1 reads
  rw [required]
  split at reads
  · cases reads
    exact ⟨.id, rfl, .id⟩
  · cases reads
    exact ⟨.random, rfl, .random⟩
  · obtain ⟨name, found, same⟩ := Except.bind_eq_ok.1 reads
    cases same
    obtain ⟨name', found', same⟩ := corresponds.require_field found
    exact ⟨.property name', congrArg (· >>= fun name => pure (SortField.property name)) found',
      .property same⟩
  · cases reads

theorem filter_value {test : FilterTest} {field : Field} {value : String}
    (isFilter : operator.kind = .filter test) (looks : operator.filterField = .ok field)
    (required : operator.require Key.value = .ok value) :
    ∃ value', operator'.require Key.value = .ok value' ∧
      (comparesInteger test field = true → Text.readInt64? value' = Text.readInt64? value) := by
  unfold Operator.require at required ⊢
  cases found : operator.attributes.get? Key.value with
  | none => rw [found] at required; cases required
  | some text =>
      rw [found] at required
      cases required
      obtain ⟨value', found', same⟩ := exists_of_rel_some (found ▸ corresponds.value)
      exact ⟨value', by rw [found'], same test field isFilter looks⟩

/-- Operators that correspond are read alike. -/
theorem exists_view (apart : TellsApart names) (reads : operator.view operands = .ok view) :
    ∃ view', operator'.view operands = .ok view' ∧ view.Corresponds names view' := by
  cases kind : operator.kind with
  | has =>
      rw [Operator.view, kind] at reads
      obtain ⟨operand, single, reads⟩ := Except.bind_eq_ok.1 reads
      obtain ⟨field, required, reads⟩ := Except.bind_eq_ok.1 reads
      cases reads
      obtain ⟨field', required', same⟩ := corresponds.require_field required
      refine ⟨.has field' operand, ?_, .has same operand⟩
      rw [Operator.view, corresponds.kind, kind]
      simp only [corresponds.oneOperand, single, required']
      rfl
  | filter test =>
      rw [Operator.view, kind] at reads
      obtain ⟨operand, single, reads⟩ := Except.bind_eq_ok.1 reads
      obtain ⟨value, required, reads⟩ := Except.bind_eq_ok.1 reads
      obtain ⟨field, looks, reads⟩ := Except.bind_eq_ok.1 reads
      obtain ⟨value', required', integers⟩ := corresponds.filter_value kind looks required
      obtain ⟨field', looks', same⟩ := corresponds.filterField looks
      split at reads
      · cases reads
      · next readable =>
        obtain ⟨caseSensitive, cases, reads⟩ := Except.bind_eq_ok.1 reads
        cases reads
        have readable' : ¬ (needsInteger test field' = true ∧ Text.readInt64? value' = none) := by
          have needs : needsInteger test field' = needsInteger test field := by cases same <;> rfl
          rw [needs]
          rintro ⟨needs, unread⟩
          exact readable ⟨needs, (integers (comparesInteger_of_needsInteger needs)).symm.trans unread⟩
        refine ⟨.filter test field' value' caseSensitive operand, ?_,
          .filter (same.name apart) integers caseSensitive operand⟩
        rw [Operator.view, corresponds.kind, kind]
        simp only [corresponds.oneOperand, corresponds.caseSensitivity, single, required', looks', cases]
        exact if_neg readable'
  | order =>
      rw [Operator.view, kind] at reads
      obtain ⟨operand, single, reads⟩ := Except.bind_eq_ok.1 reads
      obtain ⟨field, sorts, reads⟩ := Except.bind_eq_ok.1 reads
      obtain ⟨direction, directs, reads⟩ := Except.bind_eq_ok.1 reads
      cases reads
      obtain ⟨field', sorts', same⟩ := corresponds.sortField sorts
      refine ⟨.order field' direction operand, ?_, ?_⟩
      · rw [Operator.view, corresponds.kind, kind]
        simp only [corresponds.oneOperand, corresponds.sortDirection, single, sorts', directs]
        rfl
      · cases same with
        | id => exact .unnamed trivial
        | random => exact .unnamed trivial
        | property same => exact .order same direction operand
  | _ =>
      have same : operator'.view operands = operator.view operands := by
        rw [Operator.view, Operator.view, corresponds.kind, kind]
        simp only [corresponds.noOperand, corresponds.oneOperand, corresponds.someOperands,
          corresponds.listForm, corresponds.ids, corresponds.count Key.start (by decide) (by decide),
          corresponds.count Key.length (by decide) (by decide),
          corresponds.require Key.reference (by decide) (by decide),
          corresponds.others Key.space (by decide) (by decide)]
      refine ⟨view, same.trans reads, .unnamed ?_⟩
      cases view <;> first
        | trivial
        | exact absurd (kind.symm.trans (kind_of_view reads rfl)) (by simp)

end Operator.Corresponds

/-! ## Trees -/

/-- Whether trees are the same but for the fields that they name and the texts that they compare with. -/
inductive Tree.Corresponds (names : String → String → Prop) : Node → Node → Prop where
  | node {mark mark' : Mark} {operator operator' : Operator} {operands operands' : List Node}
      (link : mark'.link = mark.link) (same : operator.Corresponds names operator')
      (each : List.Forall₂ (Tree.Corresponds names) operands operands') :
      Tree.Corresponds names (.node mark operator operands) (.node mark' operator' operands')

theorem Tree.Corresponds.isEverything_eq {node node' : Node} (corresponds : node.Corresponds names node') :
    node'.isEverything = node.isEverything := by
  cases corresponds with
  | node link same each =>
      unfold Tree.isEverything
      simp only [Tree.kind, Tree.attribute?, Tree.attributes, Tree.operator_node, same.kind,
        same.others Key.reference (by decide) (by decide)]

/-- Filters of one kind correspond over operands that do, if they compare with the same integer or are
free to compare with any text. -/
theorem Tree.Corresponds.filter {mark mark' : Mark} {test : FilterTest} {field field' value value' : String}
    {operand operand' : Node} (link : mark'.link = mark.link) (same : names field field')
    (integers : Operator.comparesInteger test (.property field) = true →
      Text.readInt64? value' = Text.readInt64? value)
    (operands : operand.Corresponds names operand') :
    (Tree.filter mark (.filter test) field value operand).Corresponds names
      (Tree.filter mark' (.filter test) field' value' operand') := by
  refine .node link ⟨rfl, rfl, fun key other other' => ?_, ?_, ?_⟩ (.cons operands .nil)
  · rw [Operator.get?_withAttributes, Operator.get?_withAttributes, if_neg other', if_neg other',
      if_neg other, if_neg other]
  · rw [Operator.get?_withAttributes, Operator.get?_withAttributes]
    exact .some same
  · rw [Operator.get?_withAttributes, Operator.get?_withAttributes]
    refine .some fun other looked isFilter looks compares => integers ?_
    cases isFilter
    have untyped : (Operator.withAttributes (.filter test) [(Key.field, field),
        (Key.value, value)]).filterField = .ok (.property field) := by
      simp [Operator.filterField, Operator.require, Operator.get?_withAttributes, Key.type, Key.field,
        Key.value, Except.map]
    cases untyped.symm.trans looks
    exact compares

theorem Tree.Corresponds.everything (mark mark' : Mark) (link : mark'.link = mark.link) :
    (Tree.everything mark).Corresponds names (Tree.everything mark') :=
  .node link ⟨rfl, rfl, fun _ _ _ => rfl, .none, .none⟩ .nil

end Medley
