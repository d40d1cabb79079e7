import Medley.Proofs.Meaning.Registration

/-!
# The predicate of a collection is its meaning

Compiling a collection asks for the fields of its filters, in the order of the tree, and keeps every
relation between meanings and predicates that is kept when they are put together
(`State.gives_predicateWithin`).  So the predicate that it gives has the value that the collection means
(`State.lowers_predicate`).  Evaluation stops once a value is certain, which shows in nothing but the
patterns that it never comes to.
-/

namespace Medley

section Filters

variable {operator : Operator} {test : FilterTest} {field wanted : String} {caseSensitive : Bool}
  {column : Column} {comparison : Comparison} {literal : Literal}

theorem Value.equals_eq_isWanted (value : Value) (column : Column) (wanted : String)
    (caseSensitive : Bool) :
    column.Shows field → value.equals (match column, Text.readInt64? wanted with
      | .id, some number => .integer number
      | _, _ => .text wanted) caseSensitive = Condition.isWanted field wanted caseSensitive value := by
  intro shows
  unfold Condition.isWanted
  cases column with
  | id =>
      have isId : field = "id" := shows
      rw [if_pos isId]
      cases Text.readInt64? wanted <;> rfl
  | value number name =>
      rw [if_neg shows.2]
      rfl

/-- The comparison that is compiled says of a value what the filter says. -/
theorem Value.compare_eq_judgeValue (shows : column.Shows field)
    (reads : filterLiteral operator test column wanted caseSensitive = .ok (comparison, literal))
    (value : Value) :
    value.compare comparison literal caseSensitive =
      Condition.judgeValue test field wanted caseSensitive value := by
  have equality := value.equals_eq_isWanted column wanted caseSensitive shows
  unfold filterLiteral at reads
  cases test with
  | equals =>
      cases reads
      exact congrArg (fun same => Except.ok (some same)) equality
  | notEqual =>
      cases reads
      exact congrArg (fun same => Except.ok (some !same)) equality
  | pattern =>
      rw [Condition.judgeValue]
      cases caseSensitive <;> cases reads <;>
        simp [Value.compare, Literal.toText, Condition.likePattern]
  | token =>
      cases reads
      rfl
  | smaller | smallerEq | greater | greaterEq =>
      simp only at reads
      split at reads
      · next number read =>
        cases reads
        simp only [Value.compare, Condition.judgeValue, Condition.measures, Value.magnitude, read]
        rfl
      · cases reads

theorem Predicate.evaluate_compare (shows : column.Shows field)
    (reads : filterLiteral operator test column wanted caseSensitive = .ok (comparison, literal))
    (medium : Medium) :
    (Predicate.compare column comparison literal caseSensitive).evaluate medium =
      (Condition.compares test field wanted caseSensitive).judge medium := by
  rw [evaluate, shows.value?_eq, Condition.judge]
  cases medium.field? field with
  | none => rfl
  | some value => exact value.compare_eq_judgeValue shows reads

theorem Predicate.evaluate_has (shows : column.Shows field) (medium : Medium) :
    (Predicate.has column).evaluate medium = (Condition.has field).judge medium := by
  rw [evaluate, shows.value?_eq, Condition.judge]

/-- Whether a predicate is what a filter by itself is compiled to. -/
inductive Predicate.Tests : Condition → Predicate → Prop where
  | has {field : String} {column : Column} (shows : column.Shows field) :
      Tests (.has field) (.has column)
  | compare {operator : Operator} {test : FilterTest} {field wanted : String} {caseSensitive : Bool}
      {column : Column} {comparison : Comparison} {literal : Literal} (shows : column.Shows field)
      (reads : filterLiteral operator test column wanted caseSensitive = .ok (comparison, literal)) :
      Tests (.compares test field wanted caseSensitive)
        (.compare column comparison literal caseSensitive)

theorem Predicate.Tests.evaluate {condition : Condition} {filter : Predicate}
    (tests : filter.Tests condition) (medium : Medium) :
    filter.evaluate medium = condition.judge medium := by
  cases tests with
  | has shows => exact evaluate_has shows medium
  | compare shows reads => exact evaluate_compare shows reads medium

end Filters

namespace Compiling

variable {α β : Type} {conditions more : List Condition} {result : α → Prop}

theorem bind_eq_ok {action : Compiling α} {next : α → Compiling β} {table : AliasTable}
    {result : β × AliasTable} :
    (action >>= next) table = .ok result ↔
      ∃ value between, action table = .ok (value, between) ∧ next value between = .ok result := by
  refine Except.bind_eq_ok.trans ⟨?_, ?_⟩
  · rintro ⟨⟨value, between⟩, step, rest⟩
    exact ⟨value, between, step, rest⟩
  · rintro ⟨value, between, step, rest⟩
    exact ⟨(value, between), step, rest⟩

/-- Whether a compilation that succeeds has registered the fields of certain filters and given a result of
a certain kind. -/
def Asks (conditions : List Condition) (result : α → Prop) (action : Compiling α) : Prop :=
  ∀ table : AliasTable, table.Coherent → ∀ value after, action table = .ok (value, after) →
    after = table.askAll conditions ∧ result value

namespace Asks

theorem pure {value : α} (holds : result value) : Asks [] result (Pure.pure value) := by
  intro table _ value after same
  cases same
  exact ⟨rfl, holds⟩

theorem throw (error : Error) : Asks conditions result (MonadExcept.throw error : Compiling α) :=
  fun _ _ _ _ same => nomatch same

theorem mono {action : Compiling α} {result' : α → Prop} (asks : Asks conditions result action)
    (implies : ∀ value, result value → result' value) : Asks conditions result' action :=
  fun table coherent value after same =>
    (asks table coherent value after same).imp_right (implies value)

theorem bind {action : Compiling α} {next : α → Compiling β} {result' : β → Prop}
    (first : Asks conditions result action)
    (second : ∀ value, result value → Asks more result' (next value)) :
    Asks (conditions ++ more) result' (action >>= next) := by
  intro table coherent value after same
  obtain ⟨between, middle, step, rest⟩ := bind_eq_ok.1 same
  obtain ⟨rfl, holds⟩ := first table coherent between middle step
  rw [AliasTable.askAll_append]
  exact second between holds _ (coherent.askAll conditions) value after rest

theorem map {action : Compiling α} {image : α → β} {result' : β → Prop}
    (asks : Asks conditions result action) (implies : ∀ value, result value → result' (image value)) :
    Asks conditions result' (action >>= fun value => Pure.pure (image value)) := by
  rw [← List.append_nil conditions]
  exact asks.bind fun value holds => pure (implies value holds)

/-- Compilations one after the other register the fields of each in turn. -/
theorem mapM {ι : Type} {action : ι → Compiling α} {asked : ι → List Condition}
    {results : ι → α → Prop} {items : List ι}
    (each : ∀ item ∈ items, Asks (asked item) (results item) (action item)) :
    Asks (items.flatMap asked) (List.Forall₂ results items) (items.mapM action) := by
  induction items with
  | nil => exact pure .nil
  | cons item rest ih =>
      have later := ih fun other member => each other (.tail _ member)
      rw [List.mapM_cons, List.flatMap_cons]
      exact (each item (.head _)).bind fun value holds => later.map fun values hold => .cons holds hold

theorem register (condition : Condition) :
    Asks [condition] (Column.Shows condition.field)
      (Compiling.register condition.field condition.isOptional) := by
  intro table coherent column after same
  have registers : table.register condition.field condition.isOptional = (column, after) :=
    Except.ok.inj same
  have shows := coherent.shows_register condition.field condition.isOptional
  rw [registers] at shows
  exact ⟨(congrArg Prod.snd registers).symm, shows⟩

end Asks

/-- Whether a compilation succeeds on some table. -/
def Succeeds (action : Compiling α) : Prop := ∃ table result, action table = .ok result

namespace Succeeds

theorem of_bind {action : Compiling α} {next : α → Compiling β} (succeeds : Succeeds (action >>= next)) :
    Succeeds action ∧ ∃ value, Succeeds (next value) := by
  obtain ⟨table, result, same⟩ := succeeds
  obtain ⟨value, after, step, rest⟩ := bind_eq_ok.1 same
  exact ⟨⟨table, _, step⟩, value, after, result, rest⟩

theorem of_mapM {ι : Type} {action : ι → Compiling α} {items : List ι}
    (succeeds : Succeeds (items.mapM action)) : ∀ item ∈ items, Succeeds (action item) := by
  induction items with
  | nil => exact fun _ member => nomatch member
  | cons item rest ih =>
      rw [List.mapM_cons] at succeeds
      obtain ⟨first, _, succeeds⟩ := succeeds.of_bind
      intro other member
      rcases List.mem_cons.1 member with rfl | member
      · exact first
      · exact ih succeeds.of_bind.1 other member

end Succeeds

theorem not_succeeds_throw (error : Error) : ¬ Succeeds (MonadExcept.throw error : Compiling α) := by
  rintro ⟨_, _, fails⟩
  cases fails

end Compiling

open Compiling

/-- Whether a predicate has the value that is meant, wherever the filters have one. -/
def Predicate.Decides (meaning : Meaning) (predicate : Predicate) : Prop :=
  ∀ medium, (∀ condition ∈ meaning.conditions, condition.Judges medium) →
    predicate.evaluate medium = .ok (meaning.truth medium)

namespace Predicate.Decides

theorem always : Predicate.always.Decides .everything := fun medium _ => by
  rw [evaluate]
  rfl

/-- Evaluation stops at the first operand that is false, after which no operand matters. -/
theorem all {meanings : List Meaning} {predicates : List Predicate}
    (decide : List.Forall₂ Predicate.Decides meanings predicates) :
    (Predicate.all predicates).Decides (.all meanings) := by
  intro medium judged
  rw [evaluate]
  induction decide with
  | nil =>
      rw [evaluateAll]
      rfl
  | @cons meaning predicate meanings predicates head _ ih =>
      have judgedHead : ∀ condition ∈ meaning.conditions, condition.Judges medium :=
        fun condition member => judged condition (List.mem_append_left _ member)
      have rest := ih fun condition member => judged condition (List.mem_append_right _ member)
      rw [evaluateAll, head medium judgedHead, rest]
      show _ = Except.ok ((meaning.truth medium).and ((Meaning.all meanings).truth medium))
      cases meaning.truth medium with
      | none => rfl
      | some known => cases known <;> rfl

/-- Evaluation stops at the first operand that is true, after which no operand matters. -/
theorem any {meanings : List Meaning} {predicates : List Predicate}
    (decide : List.Forall₂ Predicate.Decides meanings predicates) :
    (Predicate.any predicates).Decides (.any meanings) := by
  intro medium judged
  rw [evaluate]
  induction decide with
  | nil =>
      rw [evaluateAny]
      rfl
  | @cons meaning predicate meanings predicates head _ ih =>
      have judgedHead : ∀ condition ∈ meaning.conditions, condition.Judges medium :=
        fun condition member => judged condition (List.mem_append_left _ member)
      have rest := ih fun condition member => judged condition (List.mem_append_right _ member)
      rw [evaluateAny, head medium judgedHead, rest]
      show _ = Except.ok ((meaning.truth medium).or ((Meaning.any meanings).truth medium))
      cases meaning.truth medium with
      | none => rfl
      | some known => cases known <;> rfl

theorem not {meaning : Meaning} {predicate : Predicate} (decides : predicate.Decides meaning) :
    (Predicate.not predicate).Decides meaning.complement := by
  intro medium judged
  rw [evaluate, decides medium judged]
  rfl

theorem listed (ids : List Int64) :
    (if ids.isEmpty then .never else .inIds ids : Predicate).Decides (.listed ids) := by
  intro medium _
  cases ids with
  | nil =>
      show Predicate.never.evaluate medium = _
      rw [evaluate]
      rfl
  | cons id rest =>
      show (Predicate.inIds (id :: rest)).evaluate medium = _
      rw [evaluate]
      rfl

/-- A filter over everything says what it says by itself. -/
theorem filter {condition : Condition} {filter : Predicate} (tests : filter.Tests condition) :
    filter.Decides (Meaning.everything.filtered condition) := by
  intro medium judged
  rw [tests.evaluate, (judged condition (.head _)).eq]
  show _ = Except.ok ((condition.truth medium).and (some true))
  match condition.truth medium with
  | some false => rfl
  | some true => rfl
  | none => rfl

theorem filtered {condition : Condition} {filter : Predicate} {meaning : Meaning}
    {predicate : Predicate} (tests : filter.Tests condition) (decides : predicate.Decides meaning) :
    (Predicate.all [filter, predicate]).Decides (meaning.filtered condition) := by
  intro medium judged
  have judgedOperand : ∀ other ∈ meaning.conditions, other.Judges medium :=
    fun other member => judged other (.tail _ member)
  rw [Predicate.evaluate, Predicate.evaluateAll, Predicate.evaluateAll, Predicate.evaluateAll,
    tests.evaluate, (judged condition (.head _)).eq, decides medium judgedOperand]
  show _ = Except.ok ((condition.truth medium).and (meaning.truth medium))
  cases condition.truth medium with
  | none => rcases meaning.truth medium with _ | _ | _ <;> rfl
  | some truth => cases truth <;> rcases meaning.truth medium with _ | _ | _ <;> rfl

end Predicate.Decides

/-- A relation between what is meant and a predicate that is kept when both are put together in the
same way. -/
structure Compositional (related : Meaning → Predicate → Prop) : Prop where
  always : related .everything .always
  listed (ids : List Int64) : related (.listed ids) (if ids.isEmpty then .never else .inIds ids)
  all {meanings : List Meaning} {predicates : List Predicate} :
    List.Forall₂ related meanings predicates → related (.all meanings) (.all predicates)
  any {meanings : List Meaning} {predicates : List Predicate} :
    List.Forall₂ related meanings predicates → related (.any meanings) (.any predicates)
  not {meaning : Meaning} {predicate : Predicate} :
    related meaning predicate → related meaning.complement (.not predicate)
  filter {condition : Condition} {filter : Predicate} :
    filter.Tests condition → related (Meaning.everything.filtered condition) filter
  filtered {condition : Condition} {filter : Predicate} {meaning : Meaning} {predicate : Predicate} :
    filter.Tests condition → related meaning predicate →
      related (meaning.filtered condition) (.all [filter, predicate])

theorem Predicate.Decides.compositional : Compositional Predicate.Decides where
  always := .always
  listed := .listed
  all := .all
  any := .any
  not := .not
  filter := .filter
  filtered := .filtered

/-- Whether a compilation asks for the fields of what is meant and gives a predicate that is related to
it. -/
def Gives (related : Meaning → Predicate → Prop) (meaning : Meaning) : Compiling Predicate → Prop :=
  Asks meaning.conditions (related meaning)

/-- Whether a compilation asks for the fields of what is meant and gives a predicate that decides it. -/
def Lowers (meaning : Meaning) : Compiling Predicate → Prop :=
  Asks meaning.conditions (Predicate.Decides meaning)

namespace Gives

variable {related : Meaning → Predicate → Prop} {meaning : Meaning}

theorem throw (error : Error) : Gives related meaning (MonadExcept.throw error) := Asks.throw error

/-- A filter drops an operand that is everything. -/
theorem withOperand (compositional : Compositional related) {operand : Node × Compiling Predicate}
    (gives : Gives related meaning operand.2)
    (everything : operand.1.isEverything = true → meaning = .everything) {condition : Condition}
    {filter : Predicate} (tests : filter.Tests condition) :
    Asks meaning.conditions (related (meaning.filtered condition)) (withOperand filter operand) := by
  unfold Medley.withOperand
  split
  · next whole =>
    rw [everything whole]
    exact .pure (compositional.filter tests)
  · exact Asks.map gives fun predicate holds => compositional.filtered tests holds

variable {onReference : Address → Compiling Predicate} {meanings : Address → Meaning}

/-- A node gives what is related to its meaning if its operands and the references among them do. -/
theorem view (compositional : Compositional related)
    (references : ∀ address, Gives related (meanings address) (onReference address))
    (operator : Operator) {ι : Type} {left : ι → Node × Compiling Predicate} {right : ι → Meaning}
    (each : ∀ operand, Gives related (right operand) (left operand).2)
    (everything : ∀ operand, (left operand).1.isEverything = true → right operand = .everything)
    (view : View ι) :
    Gives related ((view.map right).meaning meanings) ((view.map left).lower onReference operator) := by
  have several : ∀ operands : List ι, Asks ((operands.map right).flatMap Meaning.conditions)
      (List.Forall₂ related (operands.map right)) ((operands.map left).mapM Prod.snd) := by
    intro operands
    rw [List.mapM_map, List.flatMap_map]
    refine (Asks.mapM fun operand _ => each operand).mono fun predicates hold => ?_
    rwa [List.forall₂_map_left_iff]
  cases view with
  | reference name space =>
      simp only [View.map, View.lower, View.meaning]
      split
      · exact .pure compositional.always
      · cases Namespace.read (space.getD "") with
        | error error => exact .throw error
        | ok space => exact references ⟨space, name⟩
  | «universe» => exact .pure compositional.always
  | union operands => exact (several operands).map fun _ hold => compositional.any hold
  | intersection operands => exact (several operands).map fun _ hold => compositional.all hold
  | complement operand => exact Asks.map (each operand) fun _ holds => compositional.not holds
  | mediaset operand => exact each operand
  | order field direction operand => exact each operand
  | limit start length operand => exact each operand
  | list form ids operand => exact .pure (compositional.listed ids)
  | has field operand =>
      refine (Asks.register (.has field)).bind fun column shows => ?_
      exact (each operand).withOperand compositional (everything operand) (.has shows)
  | filter test field value caseSensitive operand =>
      refine (Asks.register (.compares test field.name value caseSensitive)).bind
        fun column shows => ?_
      cases reads : filterLiteral operator test column value caseSensitive with
      | error error => exact .throw error
      | ok literal =>
          exact (each operand).withOperand compositional (everything operand) (.compare shows reads)

end Gives

namespace Tree

variable {onReference : Option Handle → Address → Compiling Predicate}
  {meanings meanings' : Option Handle → Address → Meaning}

/-- What is read as everything means everything. -/
theorem meaning_of_view {mark : Mark} {operator : Operator} {operands : List Node}
    {view : View Meaning} (reads : operator.view (operands.map (meaning meanings)) = .ok view) :
    meaning meanings (.node mark operator operands) = view.meaning (meanings mark.link) := by
  rw [meaning_node]
  split
  · next everything =>
    unfold isEverything at everything
    split at everything
    · next whole =>
      have whole : operator.kind = .universe := whole
      rw [Operator.view, whole] at reads
      obtain ⟨_, -, same⟩ := Except.bind_eq_ok.1 reads
      cases same
      rfl
    · next reference =>
      have reference : operator.kind = .reference := reference
      rw [Operator.operands_eq_nil_of_reference reads reference] at reads
      obtain ⟨name, named, -, rfl⟩ := (Operator.view_reference_eq_ok reference).1 reads
      have found : operator.attributes.get? Key.reference = some allMedia := by
        simpa [leaf, attribute?, attributes] using everything
      obtain rfl := Option.some.inj (named.symm.trans found)
      rfl
    · cases everything
  · rw [reads]

/-- The operands of a node, each with what it is lowered to and with what it means. -/
theorem map_attach {β : Type} (operands : List Node) (image : Node → β) :
    operands.map image = operands.attach.map fun operand => image operand.1 := by
  rw [List.map_attach_eq_pmap, List.pmap_eq_map]

/-- A tree gives what is related to its meaning if the references in it do. -/
theorem gives {related : Meaning → Predicate → Prop} (compositional : Compositional related)
    (references : ∀ link address, Gives related (meanings link address) (onReference link address))
    (node : Node) : Gives related (node.meaning meanings) (lower onReference node) := by
  induction node using Tree.induction with
  | node mark operator operands ih =>
      rw [lower_node, map_attach operands fun operand => (operand, lower onReference operand),
        Operator.view_map]
      cases reads : operator.view operands.attach with
      | error error => exact .throw error
      | ok view =>
          have means : operator.view (operands.map (meaning meanings)) =
              .ok (view.map fun operand => operand.1.meaning meanings) := by
            rw [map_attach operands (meaning meanings), Operator.view_map, reads]
            rfl
          rw [meaning_of_view means]
          exact Gives.view compositional (references mark.link) operator
            (fun operand => ih operand.1 operand.2)
            (fun operand everything => meaning_everything everything meanings) view

end Tree

namespace State

/-- The predicate of the collection that a reference leads to, if no more than some references are
followed and none of some collections is entered. -/
def pursue (state : State) (budget : Nat) (visiting : List Handle) (link : Option Handle)
    (address : Address) : Compiling Predicate :=
  match state.follow link address with
  | none => throw { cause := .danglingReference address.name address.space.name }
  | some handle =>
      if handle ∈ visiting then throw { cause := .cyclicReference address.name address.space.name }
      else match state.resolve handle with
        | none => throw { cause := .danglingReference address.name address.space.name }
        | some target => state.predicateWithin budget (handle :: visiting) target

theorem predicateWithin_eq_lower (state : State) (budget : Nat) (visiting : List Handle) :
    state.predicateWithin (budget + 1) visiting = lower (state.pursue budget visiting) := rfl

/-- To pursue a reference that leads nowhere or into a cycle fails. -/
theorem pursue_cases (state : State) (budget : Nat) (visiting : List Handle) (link : Option Handle)
    (address : Address) :
    (∃ error, state.pursue budget visiting link address = throw error) ∨
      ∃ handle target, (state.follow link address).bind state.resolve = some target ∧
        state.pursue budget visiting link address =
          state.predicateWithin budget (handle :: visiting) target := by
  unfold pursue
  cases leads : state.follow link address with
  | none => exact .inl ⟨_, rfl⟩
  | some handle =>
      by_cases met : handle ∈ visiting
      · exact .inl ⟨_, if_pos met⟩
      · simp only [if_neg met, Option.bind_some]
        cases state.resolve handle with
        | none => exact .inl ⟨_, rfl⟩
        | some target => exact .inr ⟨handle, target, rfl, rfl⟩

/-- A tree gives what is related to its meaning, however far its references are followed. -/
theorem gives_predicateWithin {related : Meaning → Predicate → Prop}
    (compositional : Compositional related) (state : State) (budget : Nat) (visiting : List Handle)
    (node : Node) :
    Gives related (state.meaningWithin budget node) (state.predicateWithin budget visiting node) := by
  induction budget generalizing visiting node with
  | zero => exact node.gives compositional fun _ address => .throw _
  | succ budget ih =>
      refine node.gives compositional fun link address => ?_
      show Gives related _ (state.pursue budget visiting link address)
      rcases state.pursue_cases budget visiting link address with
        ⟨error, fails⟩ | ⟨handle, target, leads, enters⟩
      · exact fails ▸ .throw error
      · rw [leads, enters]
        exact ih (handle :: visiting) target

/-- The predicate of a tree decides what the tree means. -/
theorem lowers_predicate (state : State) (node : Node) :
    Lowers (state.meaning node) (state.predicate node) :=
  gives_predicateWithin Predicate.Decides.compositional state (state.slots.length + 1) [] node

end State

section Recursion

theorem Compiling.Succeeds.of_withOperand {filter : Predicate} {operand : Node × Compiling Predicate}
    (succeeds : Succeeds (withOperand filter operand)) :
    operand.1.isEverything = true ∨ Succeeds operand.2 := by
  unfold withOperand at succeeds
  split at succeeds
  · next everything => exact .inl everything
  · exact .inr succeeds.of_bind.1

/-- What a node that can be lowered means depends on nothing that is left out in lowering it. -/
theorem View.meaning_congr {onReference : Address → Compiling Predicate}
    {meanings meanings' : Address → Meaning}
    (references : ∀ address, Succeeds (onReference address) → meanings address = meanings' address)
    {operator : Operator} {ι : Type} {left : ι → Node × Compiling Predicate}
    {right right' : ι → Meaning}
    (each : ∀ operand, (left operand).1.isEverything = true ∨ Succeeds (left operand).2 →
      right operand = right' operand)
    {view : View ι} (succeeds : Succeeds ((view.map left).lower onReference operator)) :
    (view.map right).meaning meanings = (view.map right').meaning meanings' := by
  have several : ∀ {operands : List ι}, Succeeds ((operands.map left).mapM Prod.snd) →
      operands.map right = operands.map right' := by
    intro operands succeeds
    rw [List.mapM_map] at succeeds
    exact List.map_congr_left fun operand member =>
      each operand (.inr (succeeds.of_mapM operand member))
  cases view with
  | reference name space =>
      simp only [View.map, View.lower, View.meaning] at succeeds ⊢
      split
      · rfl
      · next stored =>
        rw [if_neg stored] at succeeds
        cases read : Namespace.read (space.getD "") with
        | error error => rfl
        | ok space =>
            rw [read] at succeeds
            exact references ⟨space, name⟩ succeeds
  | «universe» => rfl
  | union operands => exact congrArg Meaning.any (several succeeds.of_bind.1)
  | intersection operands => exact congrArg Meaning.all (several succeeds.of_bind.1)
  | complement operand => exact congrArg Meaning.complement (each operand (.inr succeeds.of_bind.1))
  | mediaset operand => exact each operand (.inr succeeds)
  | order field direction operand => exact each operand (.inr succeeds)
  | limit start length operand => exact each operand (.inr succeeds)
  | list form ids operand => rfl
  | has field operand =>
      obtain ⟨column, succeeds⟩ := succeeds.of_bind.2
      exact congrArg (Meaning.filtered _) (each operand succeeds.of_withOperand)
  | filter test field value caseSensitive operand =>
      obtain ⟨column, succeeds⟩ := succeeds.of_bind.2
      obtain ⟨literal, succeeds⟩ := succeeds.of_bind.2
      exact congrArg (Meaning.filtered _) (each operand succeeds.of_withOperand)

theorem Tree.meaning_congr {onReference : Option Handle → Address → Compiling Predicate}
    {meanings meanings' : Option Handle → Address → Meaning}
    (references : ∀ link address, Succeeds (onReference link address) →
      meanings link address = meanings' link address)
    {node : Node} (succeeds : Succeeds (lower onReference node)) :
    node.meaning meanings = node.meaning meanings' := by
  induction node using Tree.induction with
  | node mark operator operands ih =>
      rw [lower_node, map_attach operands fun operand => (operand, lower onReference operand),
        Operator.view_map] at succeeds
      cases reads : operator.view operands.attach with
      | error error =>
          rw [reads] at succeeds
          obtain ⟨_, _, fails⟩ := succeeds
          cases fails
      | ok view =>
          rw [reads] at succeeds
          have means : ∀ meanings, operator.view (operands.map (meaning meanings)) =
              .ok (view.map fun operand => operand.1.meaning meanings) := by
            intro meanings
            rw [map_attach operands (meaning meanings), Operator.view_map, reads]
            rfl
          rw [meaning_of_view (means meanings), meaning_of_view (means meanings')]
          refine View.meaning_congr (references mark.link) (fun operand visited => ?_) succeeds
          rcases visited with everything | succeeds
          · rw [meaning_everything everything, meaning_everything everything]
          · exact ih operand.1 operand.2 succeeds

namespace State

variable {state : State}

/-- To follow references further adds nothing to what a tree means that can be lowered. -/
theorem meaningWithin_succ {budget : Nat} {visiting : List Handle} {node : Node}
    (succeeds : Succeeds (state.predicateWithin budget visiting node)) :
    state.meaningWithin (budget + 1) node = state.meaningWithin budget node := by
  induction budget generalizing visiting node with
  | zero =>
      exact Tree.meaning_congr (fun _ _ fails => absurd fails (not_succeeds_throw _)) succeeds
  | succ budget ih =>
      rw [predicateWithin_eq_lower] at succeeds
      refine Tree.meaning_congr (fun link address succeeds => ?_) succeeds
      rcases state.pursue_cases budget visiting link address with
        ⟨error, fails⟩ | ⟨handle, target, leads, enters⟩
      · exact absurd succeeds (fails ▸ not_succeeds_throw error)
      · simp only [leads]
        exact ih (enters ▸ succeeds)

/-- The recursion without a limit: a reference means what the collection that it leads to means. -/
theorem meaning_eq {node : Node} (succeeds : Succeeds (state.predicate node)) :
    state.meaning node = node.meaning fun link address =>
      match (state.follow link address).bind state.resolve with
      | none => .unknown
      | some target => state.meaning target := by
  rw [predicate, predicateWithin_eq_lower] at succeeds
  rw [meaning, meaningWithin]
  refine Tree.meaning_congr (fun link address succeeds => ?_) succeeds
  rcases state.pursue_cases state.slots.length [] link address with
    ⟨error, fails⟩ | ⟨handle, target, leads, enters⟩
  · exact absurd succeeds (fails ▸ not_succeeds_throw error)
  · simp only [leads]
    exact (meaningWithin_succ (enters ▸ succeeds)).symm

end State

end Recursion

end Medley
