import Medley.Proofs.References.Descent

/-!
# The columns of a condition

A column is written with its number and without its field.  The aliases of a query have numbers of their
own (`AliasTable.Numbered`), and every column of its condition is one of theirs (`State.formed_predicate`),
so the numbers tell the columns of a condition apart (`AliasTable.Numbered.eq_of_number`).
-/

namespace Medley

open Compiling

namespace AliasTable

variable {table : AliasTable} {field : String} {isOptional : Bool}

/-- The columns of the aliases. -/
def columns (table : AliasTable) : List Column := table.aliases.map Alias.column

theorem columns_push (entry : Alias) : (table.push entry).columns = table.columns ++ [entry.column] := by
  rw [columns, push, List.map_append]
  rfl

theorem columns_require : (table.require field).columns = table.columns := by
  rw [columns, require, List.map_map]
  refine List.map_congr_left fun entry _ => ?_
  rw [Function.comp_apply]
  split <;> rfl

/-- No column is lost when a field is registered. -/
theorem columns_subset_register : table.columns ⊆ (table.register field isOptional).2.columns := by
  rcases table.register_cases field isOptional with ⟨entry, -, same⟩ | ⟨-, entry, _, _, -, -, -, same, -⟩
  · rw [same]
    cases isOptional with
    | true => exact List.Subset.refl _
    | false => exact columns_require ▸ List.Subset.refl _
  · rw [same, columns_push]
    exact List.subset_append_left ..

theorem column_mem_register :
    (table.register field isOptional).1 ∈ (table.register field isOptional).2.columns := by
  rcases table.register_cases field isOptional with
    ⟨entry, found, same⟩ | ⟨-, entry, _, _, -, -, -, same, -⟩
  · have member : entry.column ∈ table.columns := List.mem_map_of_mem (exists_of_find? found).1
    rw [same]
    cases isOptional with
    | true => exact member
    | false => exact columns_require.symm ▸ member
  · rw [same, columns_push]
    exact List.mem_append_right _ (.head _)

/-- What every registration keeps is kept by all that are made once a condition is there. -/
theorem withBase_of_register {motive : AliasTable → Prop}
    (keeps : ∀ {table} field isOptional, motive table → motive (table.register field isOptional).2)
    (start : motive table) (group fetch : List String) :
    motive ((table.registerAll group).registerAll fetch).withBase := by
  have registered : motive ((table.registerAll group).registerAll fetch) :=
    registerAll_of_register keeps (registerAll_of_register keeps start group) fetch
  unfold withBase
  split
  · exact keeps _ false registered
  · exact registered

/-- The columns of a table stay columns while more fields are registered. -/
theorem columns_subset_withBase {group fetch : List String} :
    table.columns ⊆ ((table.registerAll group).registerAll fetch).withBase.columns :=
  withBase_of_register (motive := fun after => table.columns ⊆ after.columns)
    (fun _ _ subset => List.Subset.trans subset columns_subset_register) (List.Subset.refl _) group fetch

/-- The numbers of properties are their own, zero is that of the base, and the next one is free. -/
structure Numbered (table : AliasTable) : Prop where
  positive : 0 < table.next
  below : ∀ entry ∈ table.aliases, entry.number < table.next
  base : ∀ entry ∈ table.aliases, entry.kind = .property → entry.number = 0 →
    table.base = some entry.field
  own : ∀ entry ∈ table.aliases, ∀ other ∈ table.aliases, entry.kind = .property →
    other.kind = .property → entry.number = other.number → entry.field = other.field

namespace Numbered

theorem empty (defaultBase : String) : ({ defaultBase } : AliasTable).Numbered where
  positive := Nat.one_pos
  below _ member := nomatch member
  base _ member := nomatch member
  own _ member := nomatch member

theorem require (numbered : table.Numbered) (field : String) : (table.require field).Numbered := by
  have image : ∀ entry ∈ (table.require field).aliases, ∃ before ∈ table.aliases,
      entry.field = before.field ∧ entry.number = before.number ∧ entry.kind = before.kind := by
    intro entry member
    obtain ⟨before, inside, rfl⟩ := List.mem_map.1 member
    refine ⟨before, inside, ?_⟩
    split <;> exact ⟨rfl, rfl, rfl⟩
  refine ⟨numbered.positive, fun entry member => ?_, fun entry member kind zero => ?_,
    fun entry member other memberOther kind kindOther same => ?_⟩
  · obtain ⟨before, inside, -, number, -⟩ := image entry member
    exact number ▸ numbered.below before inside
  · obtain ⟨before, inside, named, number, sort⟩ := image entry member
    rw [named]
    exact numbered.base before inside (sort ▸ kind) (number ▸ zero)
  · obtain ⟨before, inside, named, number, sort⟩ := image entry member
    obtain ⟨before', inside', named', number', sort'⟩ := image other memberOther
    rw [named, named']
    exact numbered.own before inside before' inside' (sort ▸ kind) (sort' ▸ kindOther)
      (by rw [← number, ← number', same])

/-- A new alias may have a number that no property has. -/
theorem push {next : Nat} {base : Option String} {entry : Alias} (numbered : table.Numbered)
    (grows : table.next ≤ next) (below : entry.number < next)
    (kept : ∀ other ∈ table.aliases, other.kind = .property → other.number = 0 → base = table.base)
    (isBase : entry.kind = .property → entry.number = 0 → base = some entry.field)
    (isNew : entry.kind = .property →
      ∀ other ∈ table.aliases, other.kind = .property → other.number ≠ entry.number) :
    ({ table with next, base }.push entry).Numbered := by
  have cases : ∀ {other}, other ∈ ({ table with next, base }.push entry).aliases →
      other ∈ table.aliases ∨ other = entry := by
    intro other member
    simpa [AliasTable.push] using member
  refine ⟨Nat.lt_of_lt_of_le numbered.positive grows, fun other member => ?_,
    fun other member kind zero => ?_, fun first memberFirst second memberSecond kind kind' same => ?_⟩
  · rcases cases member with old | rfl
    · exact Nat.lt_of_lt_of_le (numbered.below other old) grows
    · exact below
  · rcases cases member with old | rfl
    · exact (kept other old kind zero).trans (numbered.base other old kind zero)
    · exact isBase kind zero
  · rcases cases memberFirst with old | rfl <;> rcases cases memberSecond with old' | rfl
    · exact numbered.own first old second old' kind kind' same
    · exact absurd same (isNew kind' first old kind)
    · exact absurd same.symm (isNew kind second old' kind')
    · rfl

theorem register (numbered : table.Numbered) (field : String) (isOptional : Bool) :
    (table.register field isOptional).2.Numbered := by
  unfold AliasTable.register
  split
  · cases isOptional with
    | true => exact numbered
    | false => exact numbered.require field
  · split
    · exact numbered.push (Nat.le_refl _) numbered.positive (fun _ _ _ _ => rfl) nofun nofun
    · split
      · next becomes =>
        have unused : ∀ other ∈ table.aliases, other.kind = .property → other.number ≠ 0 := by
          intro other member kind zero
          cases becomes.1.symm.trans (numbered.base other member kind zero)
        exact numbered.push (Nat.le_refl _) numbered.positive
          (fun other member kind zero => absurd zero (unused other member kind)) (fun _ _ => rfl)
          fun _ other member kind => unused other member kind
      · exact numbered.push (Nat.le_succ _) (Nat.lt_succ_self _) (fun _ _ _ _ => rfl)
          (fun _ zero => absurd zero (Nat.ne_of_gt numbered.positive))
          fun _ other member _ => Nat.ne_of_lt (numbered.below other member)

/-- Columns of one number are of one property. -/
theorem eq_of_number (numbered : table.Numbered) {number : Nat} {field other : String}
    (member : .value number field ∈ table.columns) (member' : .value number other ∈ table.columns) :
    field = other := by
  have entry : ∀ {name}, Column.value number name ∈ table.columns → ∃ entry ∈ table.aliases,
      entry.kind = .property ∧ entry.number = number ∧ entry.field = name := by
    intro name member
    obtain ⟨entry, inside, same⟩ := List.mem_map.1 member
    unfold Alias.column at same
    split at same
    · cases same
    · next kind =>
      cases same
      exact ⟨entry, inside, kind, rfl, rfl⟩
  obtain ⟨first, inside, kind, number, rfl⟩ := entry member
  obtain ⟨second, inside', kind', number', rfl⟩ := entry member'
  exact numbered.own first inside second inside' kind kind' (number.trans number'.symm)

end Numbered

end AliasTable

/-- A condition in which every connective joins something, over some columns. -/
inductive Predicate.Formed (columns : List Column) : Predicate → Prop where
  | always : Formed columns .always
  | never : Formed columns .never
  | all {operands : List Predicate} (some : operands ≠ [])
      (each : ∀ operand ∈ operands, Formed columns operand) : Formed columns (.all operands)
  | any {operands : List Predicate} (some : operands ≠ [])
      (each : ∀ operand ∈ operands, Formed columns operand) : Formed columns (.any operands)
  | not {operand : Predicate} (inside : Formed columns operand) : Formed columns (.not operand)
  | compare {column : Column} (member : column ∈ columns) (test : Comparison) (literal : Literal)
      (caseSensitive : Bool) : Formed columns (.compare column test literal caseSensitive)
  | has {column : Column} (member : column ∈ columns) : Formed columns (.has column)
  | inIds {ids : List Int64} (some : ids ≠ []) : Formed columns (.inIds ids)

theorem Predicate.Formed.mono {columns more : List Column} {predicate : Predicate}
    (formed : predicate.Formed columns) (subset : columns ⊆ more) : predicate.Formed more := by
  induction formed with
  | always => exact .always
  | never => exact .never
  | all some _ ih => exact .all some ih
  | any some _ ih => exact .any some ih
  | not _ ih => exact .not ih
  | compare member test literal caseSensitive => exact .compare (subset member) ..
  | has member => exact .has (subset member)
  | inIds some => exact .inIds some

namespace Compiling

variable {α β : Type}

/-- Whether a compilation that succeeds keeps the columns of a table and gives a result over those that
are there afterwards. -/
def Draws (result : List Column → α → Prop) (table : AliasTable) (action : Compiling α) : Prop :=
  ∀ value after, action table = .ok (value, after) →
    table.columns ⊆ after.columns ∧ result after.columns value

namespace Draws

variable {result : List Column → α → Prop} {table : AliasTable}

theorem pure {value : α} (holds : result table.columns value) : Draws result table (Pure.pure value) := by
  intro other after same
  cases same
  exact ⟨List.Subset.refl _, holds⟩

theorem throw (error : Error) : Draws result table (MonadExcept.throw error) :=
  fun _ _ same => nomatch same

theorem bind {result' : List Column → β → Prop} {action : Compiling α} {next : α → Compiling β}
    (first : Draws result table action)
    (second : ∀ value (after : AliasTable), table.columns ⊆ after.columns →
      result after.columns value → Draws result' after (next value)) :
    Draws result' table (action >>= next) := by
  intro value after same
  obtain ⟨middle, between, step, rest⟩ := bind_eq_ok.1 same
  obtain ⟨grows, holds⟩ := first middle between step
  obtain ⟨growsMore, holdsAfter⟩ := second middle between grows holds value after rest
  exact ⟨List.Subset.trans grows growsMore, holdsAfter⟩

theorem map {result' : List Column → β → Prop} {action : Compiling α} {image : α → β}
    (draws : Draws result table action)
    (implies : ∀ columns value, result columns value → result' columns (image value)) :
    Draws result' table (action >>= fun value => Pure.pure (image value)) :=
  draws.bind fun value _ _ holds => pure (implies _ value holds)

/-- What one of several compilations gives stays right while the others are made. -/
theorem mapM {ι : Type} {action : ι → Compiling α} {items : List ι}
    (mono : ∀ {columns more value}, result columns value → columns ⊆ more → result more value)
    (each : ∀ item ∈ items, ∀ table, Draws result table (action item)) :
    Draws (fun columns values => values.length = items.length ∧
      ∀ value ∈ values, result columns value) table (items.mapM action) := by
  induction items generalizing table with
  | nil => exact pure ⟨rfl, fun _ member => nomatch member⟩
  | cons item rest ih =>
      rw [List.mapM_cons]
      refine (each item (.head _) table).bind fun value between _ holds => ?_
      have later : Draws _ between (rest.mapM action) :=
        ih fun other member => each other (.tail _ member)
      intro values after same
      obtain ⟨others, last, step, same⟩ := bind_eq_ok.1 same
      obtain ⟨grows, length, hold⟩ := later others last step
      cases same
      refine ⟨grows, congrArg (· + 1) length, fun other member => ?_⟩
      rcases List.mem_cons.1 member with rfl | member
      · exact mono holds grows
      · exact hold other member

theorem register (field : String) (isOptional : Bool) :
    Draws (fun columns column => column ∈ columns) table (Compiling.register field isOptional) := by
  intro column after same
  have registers : table.register field isOptional = (column, after) := Except.ok.inj same
  have subset : table.columns ⊆ (table.register field isOptional).2.columns :=
    AliasTable.columns_subset_register
  have member : (table.register field isOptional).1 ∈ (table.register field isOptional).2.columns :=
    AliasTable.column_mem_register
  rw [registers] at subset member
  exact ⟨subset, member⟩

end Draws

end Compiling

/-- A union or an intersection has an operand. -/
theorem Operator.ne_nil_of_joined {ω : Type} {operator : Operator} {operands some : List ω}
    {view : View ω} (reads : operator.view operands = .ok view)
    (joins : view = .union some ∨ view = .intersection some) : some ≠ [] := by
  rcases joins with rfl | rfl
  all_goals
    rw [Operator.view, Operator.kind_of_view reads rfl] at reads
    obtain ⟨_, taken, same⟩ := Except.bind_eq_ok.1 reads
    cases same
    obtain ⟨present, rfl⟩ := Operator.someOperands_eq_ok.1 taken
    exact present

/-- Whether a compilation gives a condition over columns of the table, whatever the table was before. -/
def Forms (action : Compiling Predicate) : Prop :=
  ∀ table, Draws (fun columns predicate => predicate.Formed columns) table action

namespace Forms

theorem withOperand {filter : Predicate} {operand : Node × Compiling Predicate}
    (forms : Forms operand.2) {table : AliasTable} (formed : filter.Formed table.columns) :
    Draws (fun columns predicate => predicate.Formed columns) table (withOperand filter operand) := by
  unfold Medley.withOperand
  split
  · exact .pure formed
  · refine (forms table).bind fun predicate after grows holds => .pure (.all nofun ?_)
    rintro operand (_ | ⟨_, _ | ⟨_, ⟨⟩⟩⟩)
    · exact formed.mono grows
    · exact holds

variable {onReference : Address → Compiling Predicate} {operator : Operator} {ι : Type}
  {operands : List ι} {left : ι → Node × Compiling Predicate} {view : View ι}

/-- A node gives a condition over columns of the table if its operands and the references among them
do. -/
theorem lower_view (references : ∀ address, Forms (onReference address))
    (each : ∀ operand, Forms (left operand).2) (reads : operator.view operands = .ok view) :
    Forms ((view.map left).lower onReference operator) := by
  intro table
  have several : ∀ operands : List ι,
      Draws (fun columns predicates => predicates.length = operands.length ∧
        ∀ predicate ∈ predicates, predicate.Formed columns) table
        ((operands.map left).mapM Prod.snd) := by
    intro operands
    rw [List.mapM_map]
    exact .mapM Predicate.Formed.mono fun operand _ => each operand
  have joined : ∀ {operands : List ι} {predicates : List Predicate}, operands ≠ [] →
      predicates.length = operands.length → predicates ≠ [] := by
    rintro operands _ some length rfl
    exact some (List.length_eq_zero_iff.1 length.symm)
  cases view with
  | reference name space =>
      simp only [View.map, View.lower]
      split
      · exact .pure .always
      · cases Namespace.read (space.getD "") with
        | error error => exact .throw error
        | ok space => exact references ⟨space, name⟩ table
  | «universe» => exact .pure .always
  | union some =>
      have present := Operator.ne_nil_of_joined reads (.inl rfl)
      exact (several some).map fun _ _ holds => .any (joined present holds.1) holds.2
  | intersection some =>
      have present := Operator.ne_nil_of_joined reads (.inr rfl)
      exact (several some).map fun _ _ holds => .all (joined present holds.1) holds.2
  | complement operand => exact (each operand table).map fun _ _ holds => .not holds
  | mediaset operand => exact each operand table
  | order field direction operand => exact each operand table
  | limit start length operand => exact each operand table
  | list form ids operand =>
      refine .pure ?_
      split
      · exact .never
      · next some => exact .inIds fun none => some (by rw [none]; rfl)
  | has field operand =>
      exact (Draws.register field true).bind fun column after _ member =>
        (each operand).withOperand (.has member)
  | filter test field value caseSensitive operand =>
      refine (Draws.register field.name false).bind fun column after _ member => ?_
      cases filterLiteral operator test column value caseSensitive with
      | error error => exact .throw error
      | ok literal => exact (each operand).withOperand (.compare member ..)

end Forms

/-- A tree gives a condition over columns of the table if the references in it do. -/
theorem Tree.forms {onReference : Option Handle → Address → Compiling Predicate}
    (references : ∀ link address, Forms (onReference link address)) (node : Node) :
    Forms (lower onReference node) := by
  induction node using Tree.induction with
  | node mark operator operands ih =>
      rw [lower_node, map_attach operands fun operand => (operand, lower onReference operand),
        Operator.view_map]
      cases reads : operator.view operands.attach with
      | error error => exact fun _ => .throw error
      | ok view => exact Forms.lower_view (references mark.link) (fun operand => ih operand.1 operand.2) reads

namespace State

theorem forms_predicateWithin (state : State) (budget : Nat) (visiting : List Handle) (node : Node) :
    Forms (state.predicateWithin budget visiting node) := by
  induction budget generalizing visiting node with
  | zero => exact node.forms fun _ _ _ => .throw _
  | succ budget ih =>
      refine node.forms fun link address => ?_
      show Forms (state.pursue budget visiting link address)
      rcases state.pursue_cases budget visiting link address with
        ⟨error, fails⟩ | ⟨handle, target, -, enters⟩
      · exact fails ▸ fun _ => .throw error
      · exact enters ▸ ih (handle :: visiting) target

variable {state : State} {defaultBase : String} {tree : Node} {params : QueryParams}
  {query : CompiledQuery}

/-- What a query is assembled from. -/
theorem compile_eq_ok : state.compile defaultBase tree params = .ok query ↔
    ∃ peeled predicate table, tree.peel = .ok peeled ∧
      state.predicate peeled.root { defaultBase } = .ok (predicate, table) ∧
      query = .assemble params peeled predicate table := by
  constructor
  · intro compiled
    obtain ⟨peeled, peels, compiled⟩ := Except.bind_eq_ok.1 compiled
    obtain ⟨⟨predicate, table⟩, lowered, compiled⟩ := Except.bind_eq_ok.1 compiled
    exact ⟨peeled, predicate, table, peels, lowered, (Except.ok.inj compiled).symm⟩
  · rintro ⟨peeled, predicate, table, peels, lowered, rfl⟩
    exact Except.bind_eq_ok.2 ⟨peeled, peels, Except.bind_eq_ok.2 ⟨(predicate, table), lowered, rfl⟩⟩

/-- The condition of a query stands over the columns of its aliases, and these are numbered. -/
theorem exists_numbered (compiled : state.compile defaultBase tree params = .ok query) :
    query.conditions = query.predicate.render ∧ ∃ table : AliasTable, table.Numbered ∧
      query.aliases = table.aliases ∧ query.predicate.Formed table.columns := by
  obtain ⟨peeled, predicate, table, -, lowered, rfl⟩ := compile_eq_ok.1 compiled
  have keeps : ∀ {table : AliasTable} field isOptional, table.Numbered →
      (table.register field isOptional).2.Numbered :=
    fun field isOptional numbered => numbered.register field isOptional
  obtain ⟨-, formed⟩ := state.forms_predicateWithin _ _ _ _ _ _ lowered
  obtain ⟨rfl, -⟩ := state.lowers_predicate peeled.root _ (.empty defaultBase) _ _ lowered
  have numbered := AliasTable.askAll_of_register keeps (AliasTable.Numbered.empty defaultBase)
    (state.meaning peeled.root).conditions
  generalize AliasTable.askAll _ _ = table at formed numbered ⊢
  exact ⟨rfl, _, AliasTable.withBase_of_register keeps numbered params.group params.fetch, rfl,
    formed.mono AliasTable.columns_subset_withBase⟩

end State

end Medley
