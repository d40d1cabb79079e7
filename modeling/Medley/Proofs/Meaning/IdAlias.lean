import Medley.Proofs.Meaning.Evaluation

/-!
# The alias of the id

Every medium has an id, so the alias of the id joins nothing, has the same column whenever it is
registered, and takes no number from the others.  Tables that differ in it alone (`AliasTable.Besides`)
stay so in whatever is compiled, which comes out the same (`State.blind_predicateWithin`).
-/

namespace Medley

namespace AliasTable

/-- The table without the alias of the id. -/
def withoutId (table : AliasTable) : AliasTable :=
  { table with aliases := table.aliases.filter fun entry => entry.field != "id" }

variable {table table' : AliasTable} {field : String} {isOptional : Bool}

theorem find?_withoutId (isProperty : field ≠ "id") :
    table.withoutId.find? field = table.find? field := by
  rw [find?, find?, withoutId, List.find?_filter]
  congr 1
  funext entry
  by_cases same : entry.field = field
  · simp [same, isProperty]
  · simp [same]

theorem withoutId_require (field : String) :
    (table.require field).withoutId = table.withoutId.require field := by
  have fields : (fun entry : Alias => entry.field != "id") ∘ (fun entry : Alias =>
      if entry.field = field then { entry with optional := false } else entry) =
        fun entry => entry.field != "id" := by
    funext entry
    by_cases same : entry.field = field <;> simp [same]
  simp only [withoutId, require, List.filter_map, fields]

theorem withoutId_push (entry : Alias) :
    (table.push entry).withoutId =
      if entry.field = "id" then table.withoutId else table.withoutId.push entry := by
  by_cases isId : entry.field = "id" <;> simp [withoutId, push, isId]

/-- Properties are registered beside the id. -/
theorem register_withoutId (isProperty : field ≠ "id") (isOptional : Bool) :
    table.withoutId.register field isOptional =
      ((table.register field isOptional).1, (table.register field isOptional).2.withoutId) := by
  unfold register
  rw [find?_withoutId isProperty]
  cases table.find? field with
  | some entry =>
      cases isOptional with
      | true => rfl
      | false => exact congrArg (entry.column, ·) (withoutId_require field).symm
  | none =>
      have settings : table.withoutId.base = table.base ∧
          table.withoutId.defaultBase = table.defaultBase ∧ table.withoutId.next = table.next :=
        ⟨rfl, rfl, rfl⟩
      simp only [if_neg isProperty, settings]
      split <;> simp only [withoutId_push, if_neg isProperty] <;> rfl

/-- Registering the id leaves the properties as they are. -/
theorem Coherent.register_id (coherent : table.Coherent) (isOptional : Bool) :
    (table.register "id" isOptional).1 = .id ∧
      (table.register "id" isOptional).2.withoutId = table.withoutId := by
  cases found : table.find? "id" with
  | some entry =>
      obtain ⟨member, named⟩ := exists_of_find? found
      have column : entry.column = .id := by
        rw [Alias.column, (coherent.kinds entry member).2 named]
      have ids : table.withoutId.require "id" = table.withoutId := by
        have same : ∀ entry ∈ table.withoutId.aliases,
            (if entry.field = "id" then { entry with optional := false } else entry) = entry := by
          intro entry member
          rw [if_neg]
          exact bne_iff_ne.1 (List.mem_filter.1 member).2
        rw [require, List.map_congr_left same, List.map_id']
      unfold AliasTable.register
      rw [found]
      refine ⟨column, ?_⟩
      cases isOptional with
      | true => rfl
      | false => exact (withoutId_require "id").trans ids
  | none =>
      unfold AliasTable.register
      rw [found]
      exact ⟨rfl, withoutId_push _⟩

/-- Whether two tables differ in the alias of the id alone. -/
structure Besides (table table' : AliasTable) : Prop where
  coherent : table.Coherent
  coherent' : table'.Coherent
  same : table'.withoutId = table.withoutId

namespace Besides

/-- A field has the same column in both tables. -/
theorem register (besides : table.Besides table') (field : String) (isOptional : Bool) :
    (table'.register field isOptional).1 = (table.register field isOptional).1 ∧
      (table.register field isOptional).2.Besides (table'.register field isOptional).2 := by
  have after := besides.coherent.register field isOptional
  have after' := besides.coherent'.register field isOptional
  by_cases isId : field = "id"
  · subst isId
    obtain ⟨column, same⟩ := besides.coherent.register_id isOptional
    obtain ⟨column', same'⟩ := besides.coherent'.register_id isOptional
    exact ⟨column'.trans column.symm, after, after', same'.trans (besides.same.trans same.symm)⟩
  · have registers : table.withoutId.register field isOptional = _ := register_withoutId isId isOptional
    have registers' : table'.withoutId.register field isOptional = _ :=
      register_withoutId isId isOptional
    rw [besides.same, registers, Prod.mk.injEq] at registers'
    exact ⟨registers'.1.symm, after, after', registers'.2.symm⟩

/-- Whether the id is registered makes no other difference. -/
theorem of_id (coherent : table.Coherent) (isOptional : Bool) :
    table.Besides (table.register "id" isOptional).2 :=
  ⟨coherent, coherent.register "id" isOptional, (coherent.register_id isOptional).2⟩

theorem registerAll (besides : table.Besides table') (fields : List String) :
    (table.registerAll fields).Besides (table'.registerAll fields) := by
  induction fields generalizing table table' with
  | nil => exact besides
  | cons field rest ih => exact ih (besides.register field true).2

theorem base (besides : table.Besides table') : table'.base = table.base := by
  have same : table'.withoutId.base = table.withoutId.base := congrArg AliasTable.base besides.same
  exact same

theorem withBase (besides : table.Besides table') : table.withBase.Besides table'.withBase := by
  have defaultBase : table'.withoutId.defaultBase = table.withoutId.defaultBase :=
    congrArg AliasTable.defaultBase besides.same
  have defaultBase : table'.defaultBase = table.defaultBase := defaultBase
  unfold AliasTable.withBase
  rw [besides.base, defaultBase]
  split
  · exact (besides.register table.defaultBase false).2
  · exact besides

/-- The same media have what both tables join. -/
theorem all_eq (besides : table.Besides table') (medium : Medium) :
    (table'.aliases.all fun entry =>
        entry.kind != .property || entry.optional || medium.properties.contains entry.field) =
      table.aliases.all fun entry =>
        entry.kind != .property || entry.optional || medium.properties.contains entry.field := by
  have drops : ∀ table : AliasTable, table.Coherent →
      (table.aliases.all fun entry =>
          entry.kind != .property || entry.optional || medium.properties.contains entry.field) =
        table.withoutId.aliases.all fun entry =>
          entry.kind != .property || entry.optional || medium.properties.contains entry.field := by
    intro table coherent
    rw [withoutId, List.all_filter, Bool.eq_iff_iff, List.all_eq_true, List.all_eq_true]
    refine forall₂_congr fun entry member => ?_
    by_cases isId : entry.field = "id"
    · simp [isId, (coherent.kinds entry member).2 isId]
    · simp [isId]
  rw [drops _ besides.coherent, drops _ besides.coherent', besides.same]

end Besides

end AliasTable

/-! ## Compilations that do not see it -/

namespace Compiling

variable {α β : Type}

/-- Whether a compilation has the same result on tables that differ in the alias of the id alone, and
leaves such tables behind. -/
def Blind (action : Compiling α) : Prop :=
  ∀ table table', table.Besides table' → ∀ value after', action table' = .ok (value, after') →
    ∃ after, action table = .ok (value, after) ∧ after.Besides after'

namespace Blind

theorem pure (value : α) : Blind (Pure.pure value) := by
  intro table table' besides _ _ same
  cases same
  exact ⟨table, rfl, besides⟩

theorem throw (error : Error) : Blind (MonadExcept.throw error : Compiling α) :=
  fun _ _ _ _ _ fails => nomatch fails

theorem bind {action : Compiling α} {next : α → Compiling β} (first : Blind action)
    (second : ∀ value, Blind (next value)) : Blind (action >>= next) := by
  intro table table' besides value after' same
  obtain ⟨between, middle', step', rest'⟩ := bind_eq_ok.1 same
  obtain ⟨middle, step, besides⟩ := first table table' besides between middle' step'
  obtain ⟨after, rest, besides⟩ := second between middle middle' besides value after' rest'
  exact ⟨after, bind_eq_ok.2 ⟨between, middle, step, rest⟩, besides⟩

theorem mapM {ι : Type} {action : ι → Compiling α} {items : List ι}
    (each : ∀ item ∈ items, Blind (action item)) : Blind (items.mapM action) := by
  induction items with
  | nil => exact pure []
  | cons item rest ih =>
      rw [List.mapM_cons]
      refine (each item (.head _)).bind fun value => ?_
      exact (ih fun other member => each other (.tail _ member)).bind fun values => pure _

theorem register (field : String) (isOptional : Bool) : Blind (Compiling.register field isOptional) := by
  intro table table' besides value after' same
  obtain ⟨column, besides⟩ := besides.register field isOptional
  have registers : table'.register field isOptional = (value, after') := Except.ok.inj same
  rw [registers] at column besides
  have column : value = (table.register field isOptional).1 := column
  exact ⟨(table.register field isOptional).2, column ▸ rfl, besides⟩

theorem withOperand {operand : Node × Compiling Predicate} (blind : Blind operand.2)
    (filter : Predicate) : Blind (withOperand filter operand) := by
  unfold Medley.withOperand
  split
  · exact pure filter
  · exact blind.bind fun value => pure _

/-- A node is lowered without regard for the id if its operands and the references among them are. -/
theorem view {onReference : Address → Compiling Predicate}
    (references : ∀ address, Blind (onReference address)) (operator : Operator) {ι : Type}
    {lowered : ι → Node × Compiling Predicate} (each : ∀ operand, Blind (lowered operand).2)
    (view : View ι) : Blind ((view.map lowered).lower onReference operator) := by
  have several : ∀ operands : List ι, Blind ((operands.map lowered).mapM Prod.snd) := by
    intro operands
    rw [List.mapM_map]
    exact mapM fun operand _ => each operand
  cases view with
  | reference name space =>
      simp only [View.map, View.lower]
      split
      · exact pure _
      · cases Namespace.read (space.getD "") with
        | error error => exact throw error
        | ok space => exact references ⟨space, name⟩
  | «universe» => exact pure _
  | union operands => exact (several operands).bind fun _ => pure _
  | intersection operands => exact (several operands).bind fun _ => pure _
  | complement operand => exact (each operand).bind fun _ => pure _
  | mediaset operand => exact each operand
  | order field direction operand => exact each operand
  | limit start length operand => exact each operand
  | list form ids operand => exact pure _
  | has field operand => exact (register field true).bind fun column => (each operand).withOperand _
  | filter test field value caseSensitive operand =>
      refine (register field.name false).bind fun column => ?_
      cases filterLiteral operator test column value caseSensitive with
      | error error => exact throw error
      | ok literal => exact (each operand).withOperand _

end Blind

end Compiling

open Compiling

theorem Tree.blind_lower {onReference : Option Handle → Address → Compiling Predicate}
    (references : ∀ link address, Blind (onReference link address)) (node : Node) :
    Blind (lower onReference node) := by
  induction node using Tree.induction with
  | node mark operator operands ih =>
      rw [lower_node, Tree.map_attach operands fun operand => (operand, lower onReference operand),
        Operator.view_map]
      cases operator.view operands.attach with
      | error error => exact .throw error
      | ok view => exact .view (references mark.link) operator (fun operand => ih operand.1 operand.2) view

/-- Compiling a collection has the same result whether the id has been registered or not. -/
theorem State.blind_predicateWithin (state : State) (budget : Nat) (visiting : List Handle)
    (node : Node) : Blind (state.predicateWithin budget visiting node) := by
  induction budget generalizing visiting node with
  | zero => exact node.blind_lower fun _ address => .throw _
  | succ budget ih =>
      refine node.blind_lower fun link address => ?_
      show Blind (state.pursue budget visiting link address)
      rcases state.pursue_cases budget visiting link address with
        ⟨error, fails⟩ | ⟨handle, target, -, enters⟩
      · exact fails ▸ .throw error
      · exact enters ▸ ih (handle :: visiting) target

end Medley
