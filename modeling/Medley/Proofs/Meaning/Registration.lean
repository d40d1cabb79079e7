import Medley.Media.Library
import Medley.Proofs.Meaning.Denotation
import Medley.Proofs.Meaning.Peeling

/-!
# The fields that a query touches

A query registers the fields of its filters, then those that it fetches, and at last the default base
if it has no base yet.  What the alias table holds afterwards is read off these lists: which properties
must be there (`AliasTable.mem_required_askAll`), and when the base is one that nothing names.
-/

namespace Medley

namespace Column

/-- Whether a column is the one of a field. -/
def Shows (field : String) : Column → Prop
  | .id => field = "id"
  | .value _ name => name = field ∧ field ≠ "id"

theorem Shows.value?_eq {field : String} {column : Column} (shows : column.Shows field)
    (medium : Medium) : medium.value? column = medium.field? field := by
  cases column with
  | id =>
      have isId : field = "id" := shows
      rw [Medium.field?, if_pos isId]
      rfl
  | value number name =>
      obtain ⟨rfl, other⟩ := shows
      rw [Medium.field?, if_neg other]
      rfl

end Column

theorem Alias.shows {entry : Alias} {field : String} (named : entry.field = field)
    (kinds : entry.kind = .id ↔ field = "id") : entry.column.Shows field := by
  unfold Alias.column
  cases kind : entry.kind with
  | id => exact kinds.1 kind
  | property => exact ⟨named, fun isId => nomatch kind.symm.trans (kinds.2 isId)⟩

namespace AliasTable

variable {table : AliasTable} {field property : String} {isOptional : Bool}

/-- Whether a field has been registered. -/
def Registers (table : AliasTable) (field : String) : Prop :=
  ∃ entry ∈ table.aliases, entry.field = field

/-- Whether media must have a property. -/
def Requires (table : AliasTable) (property : String) : Prop :=
  ∃ entry ∈ table.aliases, entry.field = property ∧ entry.kind = .property ∧ entry.optional = false

/-- The alias of the id is the one of the field of that name.  The base is a registered property, and
without one the default base has not been registered. -/
structure Coherent (table : AliasTable) : Prop where
  kinds : ∀ entry ∈ table.aliases, entry.kind = .id ↔ entry.field = "id"
  registered : ∀ base, table.base = some base → table.Registers base
  baseless : table.base = none → table.Registers table.defaultBase → table.defaultBase = "id"

theorem Coherent.empty (defaultBase : String) : ({ defaultBase } : AliasTable).Coherent where
  kinds _ member := nomatch member
  registered _ found := nomatch found
  baseless _ := fun ⟨_, member, _⟩ => nomatch member

section Registering

theorem exists_of_find? {entry : Alias} (found : table.find? field = some entry) :
    entry ∈ table.aliases ∧ entry.field = field := by
  have same := List.find?_some found
  exact ⟨List.mem_of_find?_eq_some found, beq_iff_eq.1 same⟩

theorem registers_push {entry : Alias} :
    (table.push entry).Registers field ↔ table.Registers field ∨ entry.field = field := by
  simp only [Registers, push, List.mem_append, List.mem_singleton, or_and_right, exists_or,
    exists_eq_left]

theorem requires_push {entry : Alias} :
    (table.push entry).Requires property ↔ table.Requires property ∨
      entry.field = property ∧ entry.kind = .property ∧ entry.optional = false := by
  simp only [Requires, push, List.mem_append, List.mem_singleton, or_and_right, exists_or,
    exists_eq_left]

theorem registers_require (other : String) :
    (table.require field).Registers other ↔ table.Registers other := by
  simp only [Registers, require, List.mem_map, exists_exists_and_eq_and, apply_ite Alias.field,
    ite_self]

theorem requires_require :
    (table.require field).Requires property ↔ table.Requires property ∨
      property = field ∧ ∃ entry ∈ table.aliases, entry.field = field ∧ entry.kind = .property := by
  simp only [Requires, require, List.mem_map, exists_exists_and_eq_and]
  constructor
  · rintro ⟨entry, member, required⟩
    split at required
    · next same => exact .inr ⟨required.1.symm.trans same, entry, member, same, required.2.1⟩
    · exact .inl ⟨entry, member, required⟩
  · rintro (⟨entry, member, same, kind, mandatory⟩ | ⟨rfl, entry, member, same, kind⟩)
    · refine ⟨entry, member, ?_⟩
      split <;> exact ⟨same, kind, by first | rfl | exact mandatory⟩
    · refine ⟨entry, member, ?_⟩
      rw [if_pos same]
      exact ⟨same, kind, rfl⟩

/-- What registering a field does: it marks the alias that the field has, or adds one. -/
theorem register_cases (table : AliasTable) (field : String) (isOptional : Bool) :
    (∃ entry, table.find? field = some entry ∧ table.register field isOptional =
        (entry.column, if isOptional then table else table.require field)) ∨
      table.find? field = none ∧ ∃ entry next base, entry.field = field ∧
        entry.optional = isOptional ∧ (entry.kind = .id ↔ field = "id") ∧
        table.register field isOptional = (entry.column, { table with next, base }.push entry) ∧
        (base = table.base ∨ base = some field) ∧
        (base = none → field = table.defaultBase → field = "id") := by
  cases found : table.find? field with
  | some entry => exact .inl ⟨entry, rfl, by rw [register, found]⟩
  | none =>
      refine .inr ⟨rfl, ?_⟩
      rw [register, found]
      simp only
      split
      · next isId =>
        exact ⟨{ field, number := 0, kind := .id, optional := isOptional }, table.next, table.base,
          rfl, rfl, by simp [isId], rfl, .inl rfl, fun _ _ => isId⟩
      · next other =>
        split
        · next becomes =>
          exact ⟨{ field, number := 0, kind := .property, optional := isOptional }, table.next,
            some field, rfl, rfl, by simp [other], rfl, .inr rfl, nofun⟩
        · next stays =>
          exact ⟨{ field, number := table.next, kind := .property, optional := isOptional },
            table.next + 1, table.base, rfl, rfl, by simp [other], rfl, .inl rfl,
            fun baseless same => absurd ⟨baseless, .inr same⟩ stays⟩

@[simp] theorem defaultBase_register :
    (table.register field isOptional).2.defaultBase = table.defaultBase := by
  rcases table.register_cases field isOptional with ⟨_, -, same⟩ | ⟨-, _, _, _, -, -, -, same, -⟩
  · rw [same]
    cases isOptional <;> rfl
  · rw [same]
    rfl

theorem registers_register {other : String} :
    (table.register field isOptional).2.Registers other ↔ table.Registers other ∨ other = field := by
  rcases table.register_cases field isOptional with
    ⟨entry, found, same⟩ | ⟨-, _, _, _, named, -, -, same, -⟩
  · have here : table.Registers field := ⟨entry, exists_of_find? found⟩
    rw [same]
    have kept : (if isOptional then table else table.require field).Registers other ↔
        table.Registers other := by
      cases isOptional with
      | false => exact registers_require other
      | true => exact Iff.rfl
    exact kept.trans ⟨.inl, fun either => either.elim id fun same => same ▸ here⟩
  · rw [same, registers_push, named, eq_comm]
    rfl

end Registering

namespace Coherent

theorem shows_register (coherent : table.Coherent) (field : String) (isOptional : Bool) :
    (table.register field isOptional).1.Shows field := by
  rcases table.register_cases field isOptional with
    ⟨entry, found, same⟩ | ⟨-, entry, _, _, named, -, kinds, same, -⟩
  · obtain ⟨member, named⟩ := exists_of_find? found
    rw [same]
    exact entry.shows named (named ▸ coherent.kinds entry member)
  · rw [same]
    exact entry.shows named kinds

/-- The column of a field that has been registered is its own. -/
theorem shows_column (coherent : table.Coherent) (registered : table.Registers field) :
    (table.column field).Shows field := by
  obtain ⟨entry, member, named⟩ := registered
  have isFound : (table.find? field).isSome := by
    rw [find?, List.find?_isSome]
    exact ⟨entry, member, beq_iff_eq.2 named⟩
  obtain ⟨entry, found⟩ := Option.isSome_iff_exists.1 isFound
  obtain ⟨member, named⟩ := exists_of_find? found
  rw [AliasTable.column, found]
  exact entry.shows named (named ▸ coherent.kinds entry member)

/-- A property is required once a filter needs it. -/
theorem requires_register (coherent : table.Coherent) :
    (table.register field isOptional).2.Requires property ↔
      table.Requires property ∨ isOptional = false ∧ property = field ∧ field ≠ "id" := by
  rcases table.register_cases field isOptional with
    ⟨entry, found, same⟩ | ⟨-, entry, next, base, named, optional, kinds, same, -⟩
  · obtain ⟨member, named⟩ := exists_of_find? found
    rw [same]
    cases isOptional with
    | true => simp
    | false =>
        simp only [Bool.false_eq_true, if_false, requires_require, true_and]
        refine or_congr_right (and_congr_right fun _ => ⟨?_, fun other => ?_⟩)
        · rintro ⟨entry, member, same, kind⟩ isId
          rw [(coherent.kinds entry member).2 (same.trans isId)] at kind
          cases kind
        · refine ⟨entry, member, named, ?_⟩
          cases kind : entry.kind with
          | property => rfl
          | id => exact absurd (named ▸ (coherent.kinds entry member).1 kind) other
  · rw [same, requires_push, named, optional]
    refine or_congr Iff.rfl ⟨fun ⟨same, kind, mandatory⟩ => ⟨mandatory, same.symm, fun isId => ?_⟩,
      fun ⟨mandatory, same, other⟩ => ⟨same.symm, ?_, mandatory⟩⟩
    · rw [kinds.2 isId] at kind
      cases kind
    · cases kind : entry.kind with
      | property => rfl
      | id => exact absurd (kinds.1 kind) other

theorem register (coherent : table.Coherent) (field : String) (isOptional : Bool) :
    (table.register field isOptional).2.Coherent := by
  have registers : ∀ {other}, (table.register field isOptional).2.Registers other ↔
      table.Registers other ∨ other = field := registers_register
  have default : (table.register field isOptional).2.defaultBase = table.defaultBase :=
    defaultBase_register
  rcases table.register_cases field isOptional with
    ⟨entry, found, same⟩ | ⟨-, entry, next, base, named, -, kinds, same, kept, baseless⟩
  · have here : table.Registers field := ⟨entry, exists_of_find? found⟩
    have base : (table.register field isOptional).2.base = table.base := by
      rw [same]
      cases isOptional <;> rfl
    have registered : ∀ {other}, (table.register field isOptional).2.Registers other ↔
        table.Registers other := fun {other} =>
      registers.trans ⟨fun either => either.elim id fun same => same ▸ here, .inl⟩
    refine ⟨?_, fun other found => registered.2 (coherent.registered other (base ▸ found)), ?_⟩
    · rw [same]
      intro entry member
      cases isOptional with
      | true => exact coherent.kinds entry member
      | false =>
          obtain ⟨before, inside, rfl⟩ := List.mem_map.1 member
          split <;> exact coherent.kinds before inside
    · rw [base, default]
      exact fun none named => coherent.baseless none (registered.1 named)
  · have isBase : (table.register field isOptional).2.base = base := by rw [same]; rfl
    refine ⟨?_, fun other found => ?_, ?_⟩
    · rw [same]
      intro other member
      rcases List.mem_append.1 member with before | last
      · exact coherent.kinds other before
      · rw [List.mem_singleton.1 last, kinds, named]
    · rw [isBase] at found
      rcases kept with kept | new
      · exact registers.2 (.inl (coherent.registered other (kept ▸ found)))
      · exact registers.2 (.inr (Option.some.inj (found.symm.trans new)))
    · rw [isBase, default]
      intro none named
      have before : table.base = Option.none := by
        rcases kept with kept | new
        · exact kept ▸ none
        · rw [none] at new
          cases new
      rcases registers.1 named with old | new
      · exact coherent.baseless before old
      · exact new.trans (baseless none new.symm)

end Coherent

/-- The table with the field of a filter registered. -/
def ask (table : AliasTable) (condition : Condition) : AliasTable :=
  (table.register condition.field condition.isOptional).2

/-- The table with the fields of several filters registered one after the other. -/
def askAll (table : AliasTable) (conditions : List Condition) : AliasTable :=
  conditions.foldl ask table

@[simp] theorem askAll_append (conditions more : List Condition) :
    table.askAll (conditions ++ more) = (table.askAll conditions).askAll more :=
  List.foldl_append

section Lists

theorem Coherent.ask (coherent : table.Coherent) (condition : Condition) :
    (table.ask condition).Coherent :=
  coherent.register condition.field condition.isOptional

/-- What every registration keeps is kept when several fields are asked for. -/
theorem askAll_of_register {motive : AliasTable → Prop}
    (keeps : ∀ {table} field isOptional, motive table → motive (table.register field isOptional).2)
    (start : motive table) (conditions : List Condition) : motive (table.askAll conditions) := by
  induction conditions generalizing table with
  | nil => exact start
  | cons condition rest ih => exact ih (keeps condition.field condition.isOptional start)

theorem registerAll_of_register {motive : AliasTable → Prop}
    (keeps : ∀ {table} field isOptional, motive table → motive (table.register field isOptional).2)
    (start : motive table) (fields : List String) : motive (table.registerAll fields) := by
  induction fields generalizing table with
  | nil => exact start
  | cons field rest ih => exact ih (keeps field true start)

theorem Coherent.askAll (coherent : table.Coherent) (conditions : List Condition) :
    (table.askAll conditions).Coherent :=
  askAll_of_register (fun field isOptional coherent => coherent.register field isOptional) coherent
    conditions

theorem Coherent.registerAll (coherent : table.Coherent) (fields : List String) :
    (table.registerAll fields).Coherent :=
  registerAll_of_register (fun field isOptional coherent => coherent.register field isOptional) coherent
    fields

theorem defaultBase_askAll (conditions : List Condition) :
    (table.askAll conditions).defaultBase = table.defaultBase :=
  askAll_of_register (motive := fun after => after.defaultBase = table.defaultBase)
    (fun _ _ same => defaultBase_register.trans same) rfl conditions

theorem defaultBase_registerAll (fields : List String) :
    (table.registerAll fields).defaultBase = table.defaultBase :=
  registerAll_of_register (motive := fun after => after.defaultBase = table.defaultBase)
    (fun _ _ same => defaultBase_register.trans same) rfl fields

theorem registers_askAll {conditions : List Condition} :
    (table.askAll conditions).Registers field ↔
      table.Registers field ∨ ∃ condition ∈ conditions, condition.field = field := by
  induction conditions generalizing table with
  | nil => simp [AliasTable.askAll]
  | cons condition rest ih =>
      refine ih.trans ?_
      rw [AliasTable.ask, registers_register, or_assoc, List.exists_mem_cons_iff]
      exact or_congr_right (or_congr_left eq_comm)

theorem registers_registerAll {fields : List String} :
    (table.registerAll fields).Registers field ↔ table.Registers field ∨ field ∈ fields := by
  induction fields generalizing table with
  | nil => simp [AliasTable.registerAll]
  | cons other rest ih =>
      refine ih.trans ?_
      rw [registers_register, or_assoc, List.mem_cons]

/-- The properties that media must have are those that comparisons need. -/
theorem requires_askAll (coherent : table.Coherent) {conditions : List Condition} :
    (table.askAll conditions).Requires property ↔
      table.Requires property ∨ ∃ condition ∈ conditions, condition.needed? = some property := by
  induction conditions generalizing table with
  | nil => simp [AliasTable.askAll]
  | cons condition rest ih =>
      refine (ih (coherent.ask condition)).trans ?_
      rw [AliasTable.ask, coherent.requires_register, or_assoc, List.exists_mem_cons_iff,
        Condition.needed?_eq_some]

/-- Nothing that is only fetched is required. -/
theorem requires_registerAll (coherent : table.Coherent) {fields : List String} :
    (table.registerAll fields).Requires property ↔ table.Requires property := by
  induction fields generalizing table with
  | nil => exact Iff.rfl
  | cons field rest ih =>
      refine (ih (coherent.register field true)).trans (coherent.requires_register.trans ?_)
      simp

/-- An empty table that was asked for the fields of filters and what is fetched requires what the filters
need. -/
theorem requires_asked {defaultBase : String} {conditions : List Condition} {fetch : List String} :
    ((askAll { defaultBase } conditions).registerAll fetch).Requires property ↔
      ∃ condition ∈ conditions, condition.needed? = some property := by
  have empty := Coherent.empty defaultBase
  rw [requires_registerAll (empty.askAll conditions), requires_askAll empty, or_iff_right]
  rintro ⟨_, member, _⟩
  cases member

theorem registers_asked {defaultBase : String} {conditions : List Condition} {fetch : List String} :
    ((askAll { defaultBase } conditions).registerAll fetch).Registers field ↔
      (∃ condition ∈ conditions, condition.field = field) ∨ field ∈ fetch := by
  rw [registers_registerAll, registers_askAll]
  refine or_congr_left (or_iff_right ?_)
  rintro ⟨_, member, _⟩
  cases member

end Lists

section Base

/-- A query ends with a base: one that a field became, or the default base, which is then required. -/
theorem Coherent.withBase_cases (coherent : table.Coherent) :
    (∃ base, table.base = some base ∧ table.withBase = table ∧ table.Registers base) ∨
      table.base = none ∧ (table.defaultBase = "id" ∨ ¬ table.Registers table.defaultBase) ∧
        (table.withBase.base = if table.defaultBase = "id" then none else some table.defaultBase) ∧
        ∀ property, table.withBase.Requires property ↔ table.Requires property ∨
          property = table.defaultBase ∧ table.defaultBase ≠ "id" := by
  cases isBase : table.base with
  | some base =>
      refine .inl ⟨base, rfl, ?_, coherent.registered base isBase⟩
      rw [withBase, isBase, if_neg nofun]
  | none =>
      have registered : table.withBase = (table.register table.defaultBase false).2 := by
        rw [withBase, isBase, if_pos rfl]
      refine .inr ⟨rfl, ?_, ?_, fun property => ?_⟩
      · by_cases isId : table.defaultBase = "id"
        · exact .inl isId
        · exact .inr fun named => isId (coherent.baseless isBase named)
      · rw [registered]
        unfold AliasTable.register
        cases found : table.find? table.defaultBase with
        | some entry =>
            have isId := coherent.baseless isBase ⟨entry, exists_of_find? found⟩
            simp [isId, isBase, require]
        | none => by_cases isId : table.defaultBase = "id" <;> simp [isId, isBase, push]
      · rw [registered, coherent.requires_register]
        simp

end Base

end AliasTable

namespace CompiledQuery

variable {query : CompiledQuery} {table : AliasTable} {medium : Medium}

theorem joinsMedium_iff (aliases : query.aliases = table.aliases) :
    query.joinsMedium medium = true ↔
      (query.baseField ≠ "" → medium.properties.contains query.baseField = true) ∧
        ∀ property, table.Requires property → medium.properties.contains property = true := by
  rw [joinsMedium, Bool.and_eq_true, aliases, Bool.or_eq_true, String.isEmpty_iff]
  refine and_congr or_iff_not_imp_left ?_
  rw [List.all_eq_true]
  constructor
  · rintro all property ⟨entry, member, rfl, kind, mandatory⟩
    simpa [kind, mandatory] using all entry member
  · intro all entry member
    cases kind : entry.kind with
    | id => simp
    | property =>
        cases mandatory : entry.optional with
        | true => simp
        | false => simpa using all entry.field ⟨entry, member, rfl, kind, mandatory⟩

/-- Whether media must have the base field of a query that was compiled from certain filters: where it is
not empty, or where it is the default one and neither a filter nor what is fetched names it. -/
def NeedsBase (query : CompiledQuery) (defaultBase : String) (conditions : List Condition)
    (fetch : List String) : Prop :=
  query.baseField ≠ "" ∨ query.baseField = defaultBase ∧ defaultBase ∉ fetch ∧
    ∀ condition ∈ conditions, condition.field ≠ defaultBase

/-- A query joins the media that have the base, if they must, and what comparisons need. -/
theorem joinsMedium_assemble (defaultBase : String) (conditions : List Condition)
    {params : QueryParams} (ungrouped : params.group = []) (peeled : Peeled)
    (predicate : Predicate) (medium : Medium) :
    let table := AliasTable.askAll { defaultBase } conditions
    let query := assemble params peeled predicate table
    query.joinsMedium medium = true ↔
      (query.NeedsBase defaultBase conditions params.fetch →
        medium.properties.contains query.baseField = true) ∧
      ∀ condition ∈ conditions, ∀ property, condition.needed? = some property →
        medium.properties.contains property = true := by
  intro table query
  have fetched : (table.registerAll params.fetch).Coherent :=
    ((AliasTable.Coherent.empty defaultBase).askAll conditions).registerAll params.fetch
  have requires : ∀ property, (table.registerAll params.fetch).Requires property ↔
      ∃ condition ∈ conditions, condition.needed? = some property :=
    fun _ => AliasTable.requires_asked
  have registers : ∀ field, (table.registerAll params.fetch).Registers field ↔
      (∃ condition ∈ conditions, condition.field = field) ∨ field ∈ params.fetch :=
    fun _ => AliasTable.registers_asked
  have default : (table.registerAll params.fetch).defaultBase = defaultBase :=
    (AliasTable.defaultBase_registerAll _).trans (AliasTable.defaultBase_askAll _)
  have ends : query.aliases = (table.registerAll params.fetch).withBase.aliases ∧
      query.baseField = (table.registerAll params.fetch).withBase.base.getD "" := by
    simp only [query, assemble, ungrouped]
    exact ⟨rfl, rfl⟩
  rw [joinsMedium_iff ends.1, NeedsBase]
  generalize table.registerAll params.fetch = final at *
  have needs : (∀ condition ∈ conditions, ∀ property, condition.needed? = some property →
      medium.properties.contains property = true) ↔
        ∀ property, final.Requires property → medium.properties.contains property = true := by
    simp only [requires]
    constructor
    · rintro all property ⟨condition, member, needed⟩
      exact all condition member property needed
    · exact fun all condition member property needed => all property ⟨condition, member, needed⟩
  rw [needs]
  rcases fetched.withBase_cases with ⟨base, isBase, same, named⟩ | ⟨-, unnamed, isBase, required⟩
  · -- The base was named, so nothing but its being empty frees a medium from having it.
    have field : query.baseField = base := by rw [ends.2, same, isBase]; rfl
    rw [same, field]
    refine and_congr_left fun _ => ⟨fun must needed => ?_, fun must other => must (.inl other)⟩
    rcases needed with other | ⟨rfl, unfetched, untested⟩
    · exact must other
    · rcases (registers base).1 named with ⟨condition, member, same⟩ | member
      · exact absurd same (untested condition member)
      · exact absurd member unfetched
  · rw [default] at unnamed isBase required
    simp only [required, or_imp, forall_and, and_imp, forall_eq]
    by_cases isId : defaultBase = "id"
    · have field : query.baseField = "" := by rw [ends.2, isBase, if_pos isId]; rfl
      rw [field, isId]
      simp
    · have field : query.baseField = defaultBase := by rw [ends.2, isBase, if_neg isId]; rfl
      have free := unnamed.resolve_left isId
      rw [registers, not_or, not_exists] at free
      rw [field]
      constructor
      · rintro ⟨-, needed, base⟩
        exact ⟨⟨fun _ => base isId, fun _ _ _ => base isId⟩, needed⟩
      · rintro ⟨⟨-, base⟩, needed⟩
        have owns := base rfl free.2 fun condition member same => free.1 condition ⟨member, same⟩
        exact ⟨fun _ => owns, needed, fun _ => owns⟩

end CompiledQuery

end Medley
