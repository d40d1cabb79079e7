import Mathlib.Data.List.Nodup
import Medley.Proofs.Meaning.Commutation
import Medley.Proofs.Sql.Columns

/-!
# The aliases of a query

Fields are registered while a tree is compiled, through all its references, then for the groups, for what
is fetched and for the base, and what is known of a field may change afterwards.  Each registration
keeps the table in order (`AliasTable.Sequenced.register`): a field has one alias, joined aliases are
numbered one after the other and zero is the number of the base alone.  Columns are handed out while the
table still grows.  They stay columns of the table, and those that are compared belong to fields that
media must have (`Predicate.compositional_comparesOnly`), so the whole query fits its table
(`State.wellAliased_of_compile`).
-/

namespace Medley

open Compiling

/-- Whether an alias stands for the base. -/
def Alias.isBase (entry : Alias) : Bool := entry.kind == .property && entry.number == 0

namespace AliasTable

variable {table : AliasTable} {field : String} {isOptional : Bool}

/-- A table in which each field has one alias, joined aliases count up from one to the number before the
next, and the base, if there is any, is the one property with the number zero. -/
structure Sequenced (table : AliasTable) : Prop where
  fields : (table.aliases.map Alias.field).Nodup
  positive : 0 < table.next
  joins : (table.aliases.filter Alias.isJoin).map Alias.number = List.range' 1 (table.next - 1)
  base : (table.aliases.filter Alias.isBase).map Alias.field = table.base.toList

namespace Sequenced

theorem empty (defaultBase : String) : ({ defaultBase } : AliasTable).Sequenced where
  fields := .nil
  positive := Nat.one_pos
  joins := rfl
  base := rfl

/-- Nothing but whether media may lack the field changes when a field is required. -/
theorem filter_map_require {β : Type} {test : Alias → Bool} {image : Alias → β}
    (tests : ∀ entry : Alias, test { entry with optional := false } = test entry)
    (images : ∀ entry : Alias, image { entry with optional := false } = image entry) :
    ((table.require field).aliases.filter test).map image = (table.aliases.filter test).map image := by
  have unchanged : ∀ entry : Alias,
      test (if entry.field = field then { entry with optional := false } else entry) = test entry ∧
      image (if entry.field = field then { entry with optional := false } else entry) =
        image entry := by
    intro entry
    split
    · exact ⟨tests entry, images entry⟩
    · exact ⟨rfl, rfl⟩
  rw [require, List.filter_map, List.map_map]
  simp only [Function.comp_def, unchanged]

theorem require (sequenced : table.Sequenced) (field : String) : (table.require field).Sequenced where
  fields := by
    have same : ((table.require field).aliases.filter fun _ => true).map Alias.field =
        (table.aliases.filter fun _ => true).map Alias.field :=
      filter_map_require (fun _ => rfl) fun _ => rfl
    rw [List.filter_true, List.filter_true] at same
    rw [same]
    exact sequenced.fields
  positive := sequenced.positive
  joins := (filter_map_require (fun _ => rfl) fun _ => rfl).trans sequenced.joins
  base := (filter_map_require (fun _ => rfl) fun _ => rfl).trans sequenced.base

/-- A field that has no alias yet is added behind those that have one. -/
theorem nodup_push (sequenced : table.Sequenced) {entry : Alias}
    (unregistered : table.find? entry.field = none) :
    ((table.push entry).aliases.map Alias.field).Nodup := by
  have absent : entry.field ∉ table.aliases.map Alias.field := by
    rintro member
    obtain ⟨other, inside, same⟩ := List.mem_map.1 member
    have differs := List.find?_eq_none.1 unregistered other inside
    exact differs (beq_iff_eq.2 same)
  rw [AliasTable.push, List.map_append, List.map_singleton]
  exact (List.perm_append_singleton ..).nodup_iff.2 (List.nodup_cons.2 ⟨absent, sequenced.fields⟩)

theorem register (sequenced : table.Sequenced) (field : String) (isOptional : Bool) :
    (table.register field isOptional).2.Sequenced := by
  unfold AliasTable.register
  cases found : table.find? field with
  | some entry =>
      cases isOptional with
      | true => exact sequenced
      | false => exact sequenced.require field
  | none =>
      have positive := sequenced.positive
      simp only
      split
      · refine ⟨sequenced.nodup_push found, positive, ?_, ?_⟩
        · simpa [AliasTable.push, List.filter_append, Alias.isJoin] using sequenced.joins
        · simpa [AliasTable.push, List.filter_append, Alias.isBase] using sequenced.base
      · split
        · next becomes =>
          have baseless := sequenced.base
          rw [becomes.1] at baseless
          refine ⟨sequenced.nodup_push found, positive, ?_, ?_⟩
          · simpa [AliasTable.push, List.filter_append, Alias.isJoin] using sequenced.joins
          · simpa [AliasTable.push, List.filter_append, Alias.isBase] using baseless
        · have joins : List.range' 1 table.next = List.range' 1 (table.next - 1) ++ [table.next] := by
            conv_lhs => rw [← Nat.sub_add_cancel positive, List.range'_concat]
            rw [Nat.one_mul, Nat.add_sub_cancel' positive]
          refine ⟨sequenced.nodup_push found, Nat.succ_pos _, ?_, ?_⟩
          · have isJoin : Alias.isJoin ⟨field, table.next, .property, isOptional⟩ = true := by
              simp [Alias.isJoin, Nat.ne_of_gt positive]
            simp [AliasTable.push, List.filter_append, isJoin, sequenced.joins, joins]
          · have kept : Alias.isBase ⟨field, table.next, .property, isOptional⟩ = false := by
              simp [Alias.isBase, Nat.ne_of_gt positive]
            simpa [AliasTable.push, List.filter_append, kept] using sequenced.base

/-- Aliases of one field are the same. -/
theorem eq_of_field (sequenced : table.Sequenced) {entry other : Alias} (member : entry ∈ table.aliases)
    (inside : other ∈ table.aliases) (same : entry.field = other.field) : entry = other :=
  List.inj_on_of_nodup_map sequenced.fields member inside same

/-- No two properties have one number. -/
theorem nodup_numbers (sequenced : table.Sequenced) (numbered : table.Numbered) :
    ((table.aliases.filter fun entry => entry.kind == .property).map Alias.number).Nodup := by
  refine List.Nodup.map_on (fun entry member other inside same => ?_)
    (sequenced.fields.of_map _ |>.filter _)
  obtain ⟨member, kind⟩ := List.mem_filter.1 member
  obtain ⟨inside, kind'⟩ := List.mem_filter.1 inside
  exact sequenced.eq_of_field member inside
    (numbered.own entry member other inside (beq_iff_eq.1 kind) (beq_iff_eq.1 kind') same)

/-- Joined aliases count up from one. -/
theorem joins_eq (sequenced : table.Sequenced) :
    (table.aliases.filter Alias.isJoin).map Alias.number =
      List.range' 1 (table.aliases.filter Alias.isJoin).length := by
  have counted := congrArg List.length sequenced.joins
  rw [List.length_map, List.length_range'] at counted
  rw [sequenced.joins, counted]

/-- The alias with the number zero is that of the base. -/
theorem base_cases (sequenced : table.Sequenced) :
    (table.aliases.filter Alias.isBase).map Alias.field = [table.base.getD ""] ∨
      table.aliases.filter Alias.isBase = [] ∧ table.base.getD "" = "" := by
  have isBase := sequenced.base
  cases base : table.base with
  | some field => exact .inl (isBase.trans (by rw [base]; rfl))
  | none => exact .inr ⟨List.map_eq_nil_iff.1 (isBase.trans (by rw [base]; rfl)), rfl⟩

/-- There are at least as many aliases as numbers. -/
theorem number_le (sequenced : table.Sequenced) (numbered : table.Numbered) {entry : Alias}
    (member : entry ∈ table.aliases) : entry.number ≤ table.aliases.length := by
  have joins := congrArg List.length sequenced.joins
  rw [List.length_map, List.length_range'] at joins
  have fewer : (table.aliases.filter Alias.isJoin).length ≤ table.aliases.length :=
    List.length_filter_le ..
  have below := numbered.below entry member
  omega

/-- The column of a property that is required is the one of an alias that is. -/
theorem exists_required (sequenced : table.Sequenced) (required : table.Requires field) {number : Nat}
    (member : .value number field ∈ table.columns) :
    ∃ entry ∈ table.aliases, entry.column = .value number field ∧ entry.optional = false := by
  obtain ⟨entry, inside, named, -, mandatory⟩ := required
  obtain ⟨other, inside', column⟩ := List.mem_map.1 member
  obtain rfl : other = entry := by
    refine sequenced.eq_of_field inside' inside (Eq.trans ?_ named.symm)
    unfold Alias.column at column
    split at column
    · cases column
    · exact (Column.value.inj column).2
  exact ⟨other, inside, column, mandatory⟩

end Sequenced

/-- What every registration keeps is kept from the empty table to that of a query. -/
theorem ends_of_register {motive : AliasTable → Prop} {defaultBase : String}
    (keeps : ∀ {table : AliasTable} field isOptional,
      motive table → motive (table.register field isOptional).2) (start : motive { defaultBase })
    (conditions : List Condition) (group fetch : List String) :
    motive (((askAll { defaultBase } conditions).registerAll group).registerAll fetch).withBase :=
  withBase_of_register keeps (askAll_of_register keeps start conditions) group fetch

section Growing

variable {group fetch : List String}

/-- Groups and what is fetched are registered. -/
theorem registers_withBase_of_mem (member : field ∈ group ∨ field ∈ fetch) :
    ((table.registerAll group).registerAll fetch).withBase.Registers field :=
  registers_withBase <| registers_registerAll.2 <|
    member.imp_left fun inside => registers_registerAll.2 (.inr inside)

/-- What media must have stays so while more fields are registered. -/
theorem Coherent.requires_withBase_of_requires (coherent : table.Coherent)
    (required : table.Requires field) :
    ((table.registerAll group).registerAll fetch).withBase.Requires field :=
  (withBase_of_register (motive := fun after => after.Coherent ∧ after.Requires field)
    (fun other isOptional ⟨coherent, holds⟩ =>
      ⟨coherent.register other isOptional, coherent.requires_register.2 (.inl holds)⟩)
    ⟨coherent, required⟩ group fetch).2

end Growing

theorem column_mem_columns (registered : table.Registers field) :
    table.column field ∈ table.columns := by
  obtain ⟨entry, member, named⟩ := registered
  have isFound : (table.find? field).isSome :=
    List.find?_isSome.2 ⟨entry, member, beq_iff_eq.2 named⟩
  obtain ⟨entry, found⟩ := Option.isSome_iff_exists.1 isFound
  rw [AliasTable.column, found]
  exact List.mem_map_of_mem (exists_of_find? found).1

/-- An order by the value that an alias joins is by that of the field. -/
theorem value_mem_columns {sort : SortField} {direction : Direction} {number : Nat}
    (joined : (table.orderBy sort direction).key = .value field (some number)) :
    .value number field ∈ table.columns := by
  cases sort with
  | id => cases joined
  | random => cases joined
  | property name =>
      injection joined with named numbered
      obtain ⟨entry, found, rfl⟩ := Option.map_eq_some_iff.1 numbered
      have holds := List.find?_some found
      rw [Bool.and_eq_true, beq_iff_eq, beq_iff_eq] at holds
      have column : entry.column = .value entry.number field := by
        rw [Alias.column, holds.2, holds.1.trans named]
      exact column ▸ List.mem_map_of_mem (List.mem_of_find?_eq_some found)

end AliasTable

namespace Predicate

/-- Whether a predicate looks at a column. -/
inductive Names (column : Column) : Predicate → Prop where
  | has : Names column (.has column)
  | compare (test : Comparison) (literal : Literal) (caseSensitive : Bool) :
      Names column (.compare column test literal caseSensitive)
  | all {operands : List Predicate} {operand : Predicate} (member : operand ∈ operands)
      (names : Names column operand) : Names column (.all operands)
  | any {operands : List Predicate} {operand : Predicate} (member : operand ∈ operands)
      (names : Names column operand) : Names column (.any operands)
  | not {operand : Predicate} (names : Names column operand) : Names column (.not operand)

/-- Whether a predicate compares a column with something. -/
inductive Compares (column : Column) : Predicate → Prop where
  | compare (test : Comparison) (literal : Literal) (caseSensitive : Bool) :
      Compares column (.compare column test literal caseSensitive)
  | all {operands : List Predicate} {operand : Predicate} (member : operand ∈ operands)
      (compares : Compares column operand) : Compares column (.all operands)
  | any {operands : List Predicate} {operand : Predicate} (member : operand ∈ operands)
      (compares : Compares column operand) : Compares column (.any operands)
  | not {operand : Predicate} (compares : Compares column operand) : Compares column (.not operand)

variable {column : Column} {predicate : Predicate}

theorem Compares.names (compares : predicate.Compares column) : predicate.Names column := by
  induction compares with
  | compare test literal caseSensitive => exact .compare test literal caseSensitive
  | all member _ ih => exact .all member ih
  | any member _ ih => exact .any member ih
  | not _ ih => exact .not ih

/-- A predicate looks at the columns that it stands over. -/
theorem Formed.mem_of_names {columns : List Column} (formed : predicate.Formed columns)
    (names : predicate.Names column) : column ∈ columns := by
  induction formed with
  | always => cases names
  | never => cases names
  | all _ _ ih => cases names with | all member inside => exact ih _ member inside
  | any _ _ ih => cases names with | any member inside => exact ih _ member inside
  | not _ ih => cases names with | not inside => exact ih inside
  | compare member => cases names; exact member
  | has member => cases names; exact member
  | inIds => cases names

/-- Whether the columns that a predicate compares are those of comparisons that are meant. -/
def ComparesOnly (meaning : Meaning) (predicate : Predicate) : Prop :=
  ∀ column, predicate.Compares column →
    ∃ condition ∈ meaning.conditions, condition.isOptional = false ∧ column.Shows condition.field

/-- What several predicates compare is meant by one of several meanings. -/
theorem exists_condition_of_forall₂ {meanings : List Meaning} {predicates : List Predicate}
    (only : List.Forall₂ ComparesOnly meanings predicates) {operand : Predicate}
    (member : operand ∈ predicates) (compares : operand.Compares column) :
    ∃ condition ∈ meanings.flatMap Meaning.conditions,
      condition.isOptional = false ∧ column.Shows condition.field := by
  obtain ⟨meaning, inside, only⟩ := exists_of_mem_right only member
  obtain ⟨condition, asked, holds⟩ := only column compares
  exact ⟨condition, List.mem_flatMap.2 ⟨meaning, inside, asked⟩, holds⟩

theorem Tests.comparesOnly {condition : Condition} {filter : Predicate} (tests : filter.Tests condition)
    (compares : filter.Compares column) :
    condition.isOptional = false ∧ column.Shows condition.field := by
  cases tests with
  | has => cases compares
  | compare shows => cases compares; exact ⟨rfl, shows⟩

theorem compositional_comparesOnly : Compositional ComparesOnly where
  always := nofun
  listed ids column compares := by split at compares <;> cases compares
  all only column compares := by
    cases compares with
    | all member inside => exact exists_condition_of_forall₂ only member inside
  any only column compares := by
    cases compares with
    | any member inside => exact exists_condition_of_forall₂ only member inside
  not only column compares := by
    cases compares with
    | not inside => exact only column inside
  filter tests column compares := ⟨_, .head _, tests.comparesOnly compares⟩
  filtered tests only column compares := by
    cases compares with
    | all member inside =>
        rcases List.mem_pair.1 member with rfl | rfl
        · exact ⟨_, .head _, tests.comparesOnly inside⟩
        · obtain ⟨condition, asked, holds⟩ := only column inside
          exact ⟨condition, .tail _ asked, holds⟩

end Predicate

/-- What the alias table of a query keeps to, and what the query takes from it. -/
structure CompiledQuery.WellAliased (query : CompiledQuery) : Prop where
  /-- A field has one alias. -/
  fields : (query.aliases.map Alias.field).Nodup
  kinds : ∀ entry ∈ query.aliases, entry.kind = .id ↔ entry.field = "id"
  /-- No two properties have one number. -/
  numbers : ((query.aliases.filter fun entry => entry.kind == .property).map Alias.number).Nodup
  /-- Joined aliases count up from one in the order in which they are registered. -/
  joins : query.joins.map Alias.number = List.range' 1 query.joins.length
  /-- The property with the number zero is the base, and without one the base is empty. -/
  base : (query.aliases.filter Alias.isBase).map Alias.field = [query.baseField] ∨
    query.aliases.filter Alias.isBase = [] ∧ query.baseField = ""
  /-- There are at least as many aliases as numbers. -/
  bounded : ∀ entry ∈ query.aliases, entry.number ≤ query.aliases.length
  /-- Columns are those of aliases. -/
  columns : ∀ column, query.predicate.Names column ∨ column ∈ query.fetch.map FetchField.column ∨
    column ∈ query.groupBy → column ∈ query.aliases.map Alias.column
  orders : ∀ order ∈ query.orderBy, ∀ field number, order.key = .value field (some number) →
    .value number field ∈ query.aliases.map Alias.column
  /-- Media must have the properties that are compared. -/
  compared : ∀ number field, query.predicate.Compares (.value number field) →
    ∃ entry ∈ query.aliases, entry.column = .value number field ∧ entry.optional = false

namespace State

variable {state : State} {defaultBase : String} {tree : Node} {params : QueryParams}
  {query : CompiledQuery}

/-- Every query that a collection is compiled to fits its alias table. -/
theorem wellAliased_of_compile (compiled : state.compile defaultBase tree params = .ok query) :
    query.WellAliased := by
  obtain ⟨peeled, predicate, table, -, lowered, rfl⟩ := compile_eq_ok.1 compiled
  obtain ⟨-, formed⟩ := state.forms_predicateWithin _ _ _ _ _ _ lowered
  obtain ⟨rfl, only⟩ := gives_predicateWithin Predicate.compositional_comparesOnly state _ [] peeled.root
    _ (.empty defaultBase) _ _ lowered
  generalize state.meaningWithin _ peeled.root = meaning at formed only ⊢
  let asked := AliasTable.askAll { defaultBase } meaning.conditions
  let final := ((asked.registerAll params.group).registerAll params.fetch).withBase
  have sequenced : final.Sequenced :=
    AliasTable.ends_of_register (fun field isOptional holds => holds.register field isOptional)
      (.empty defaultBase) _ _ _
  have numbered : final.Numbered :=
    AliasTable.ends_of_register (fun field isOptional holds => holds.register field isOptional)
      (.empty defaultBase) _ _ _
  have coherent : final.Coherent :=
    AliasTable.ends_of_register (fun field isOptional holds => holds.register field isOptional)
      (.empty defaultBase) _ _ _
  have grows : asked.columns ⊆ final.columns := AliasTable.columns_subset_withBase
  exact {
    fields := sequenced.fields
    kinds := coherent.kinds
    numbers := sequenced.nodup_numbers numbered
    joins := sequenced.joins_eq
    base := sequenced.base_cases
    bounded := fun entry member => sequenced.number_le numbered member
    columns := by
      rintro column (names | fetched | grouped)
      · exact grows (formed.mem_of_names names)
      · obtain ⟨entry, member, rfl⟩ := List.mem_map.1 fetched
        obtain ⟨field, asked, rfl⟩ := List.mem_map.1 member
        exact AliasTable.column_mem_columns (AliasTable.registers_withBase_of_mem (.inr asked))
      · obtain ⟨field, member, rfl⟩ := List.mem_map.1 grouped
        exact AliasTable.column_mem_columns (AliasTable.registers_withBase_of_mem (.inl member))
    orders := by
      intro order member field number joined
      obtain ⟨sort, -, rfl⟩ := List.mem_map.1 member
      exact AliasTable.value_mem_columns joined
    compared := by
      intro number field compares
      obtain ⟨condition, member, mandatory, rfl, other⟩ := only _ compares
      have needed : condition.needed? = some condition.field :=
        Condition.needed?_eq_some.2 ⟨mandatory, rfl, other⟩
      have required : asked.Requires condition.field :=
        (AliasTable.requires_askAll (.empty defaultBase)).2 (.inr ⟨condition, member, needed⟩)
      have start := (AliasTable.Coherent.empty defaultBase).askAll meaning.conditions
      exact sequenced.exists_required (start.requires_withBase_of_requires required)
        (grows (formed.mem_of_names compares.names)) }

/-- A field that is tested for presence before it is compared, and asked for as a group, to be fetched
and as an order besides. -/
theorem wellAliased_of_compile_jazz :
    ∃ query, State.compile {} "url" Sample.jazzTested
        { fetch := ["id", "genre", "url"], group := ["album"], order := ["-genre", "title"] } =
          .ok query ∧ query.WellAliased := by
  obtain ⟨query, compiled⟩ : ∃ query, State.compile {} "url" Sample.jazzTested
      { fetch := ["id", "genre", "url"], group := ["album"], order := ["-genre", "title"] } =
        .ok query := ⟨_, rfl⟩
  exact ⟨query, compiled, wellAliased_of_compile compiled⟩

end State

end Medley
