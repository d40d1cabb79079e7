import Mathlib.Logic.Relation
import Medley.Proofs.Meaning.Evaluation
import Medley.Registry.Validation

/-!
# How far compiling descends

Compiling goes down to the operands of a node and on through references into stored collections, which
are never entered twice on one path.  So every descent comes to an end, on whatever state, and the limit
on the number of references that are followed is never met (`State.predicate_eq_predicateAlong`).  What
is compiled leads into no cycle of references, and a failure that reports a cycle has found one
(`State.compile_descends`).
-/

namespace Medley

open Compiling

/-! ## The references that a tree is compiled through -/

/-- Whether compiling an operator goes down to an operand, which may be the whole library: party
shuffles leave their operand out, and filters drop one that is everything. -/
def Operator.looksInto (operator : Operator) (everything : Bool) : Bool :=
  match operator.kind with
  | .reference | .list _ => false
  | .has | .filter _ => !everything
  | _ => true

/-- The references that compiling a tree comes to, each with its link. -/
def Tree.visits : Node → List (Address × Option Handle) :=
  fold fun mark operator operands =>
    (operator.target?.map fun address => (address, mark.link)).toList ++
      (operands.filter fun operand => operator.looksInto operand.1.isEverything).flatMap Prod.snd

/-- The operands that a view shows. -/
def View.operands {ω : Type} : View ω → List ω
  | .reference _ _ | .universe => []
  | .union operands | .intersection operands => operands
  | .complement operand | .mediaset operand | .has _ operand | .filter _ _ _ _ operand
  | .order _ _ operand | .limit _ _ operand => [operand]
  | .list _ _ operand => operand.toList

namespace Operator

variable {ω : Type} {operator : Operator} {operands : List ω} {view : View ω}

theorem noOperand_eq_ok : operator.noOperand operands = .ok () ↔ operands = [] := by
  cases operands <;> simp [noOperand, badArity, fail]

theorem someOperands_eq_ok {some : List ω} :
    operator.someOperands operands = .ok some ↔ operands ≠ [] ∧ operands = some := by
  cases operands <;> simp [someOperands, badArity, fail]

/-- No operand is lost in reading. -/
theorem operands_of_view (reads : operator.view operands = .ok view) : view.operands = operands := by
  unfold Operator.view at reads
  split at reads
  all_goals
    simp only [Except.bind_eq_ok, pure, Except.pure, oneOperand_eq_ok, someOperands_eq_ok]
      at reads
    grind [fail, badValue, Except.bind_eq_ok, View.operands, oneOperand_eq_ok, noOperand_eq_ok]

theorem isList_of_view {form : ListForm} {ids : List Int64} {operand : Option ω}
    (reads : operator.view operands = .ok (.list form ids operand)) :
    ∃ form, operator.kind = .list form := by
  unfold Operator.view at reads
  split at reads
  all_goals
    simp only [Except.bind_eq_ok, pure, Except.pure] at reads
    try grind [fail, badValue, Except.bind_eq_ok]

/-- An operator with a target is read as the reference that it is. -/
theorem view_of_target? {address : Address} (target : operator.target? = some address)
    (reads : operator.view operands = .ok view) :
    ∃ text, view = .reference address.name (some text) ∧ address.name ≠ allMedia ∧
      Namespace.read text = .ok address.space := by
  have reference := kind_of_target? target
  obtain rfl := operands_eq_nil_of_reference reads reference
  obtain ⟨name, named, -, rfl⟩ := (view_reference_eq_ok reference).1 reads
  simp only [target?, reference, if_true, named, Option.bind_eq_bind, Option.bind_some] at target
  split at target
  · cases target
  · next stored =>
    obtain ⟨text, found, target⟩ := Option.bind_eq_some_iff.1 target
    obtain ⟨space, known, same⟩ := Option.bind_eq_some_iff.1 target
    cases same
    exact ⟨text, by rw [found], stored, by rw [Namespace.read, known]⟩

/-- Operands are read alike with the proof that they are. -/
theorem view_attach : operator.view operands =
    (operator.view operands.attach).map (View.map Subtype.val) := by
  rw [← view_map, List.attach_map_subtype_val]

theorem kind_ne_of_require {key : String} {error : Error}
    (fails : operator.require key = .error error) : error.kind ≠ .cyclicReference := by
  unfold require at fails
  split at fails <;> cases fails
  nofun

theorem kind_ne_of_sortField {error : Error} (fails : operator.sortField = .error error) :
    error.kind ≠ .cyclicReference := by
  rcases Except.bind_eq_error.1 fails with missing | ⟨type, -, fails⟩
  · exact kind_ne_of_require missing
  · split at fails
    · cases fails
    · cases fails
    · exact kind_ne_of_require ((Except.bind_eq_error.1 fails).resolve_right nofun)
    · cases fails
      nofun

/-- Reading an operator reports no cycle. -/
theorem kind_ne_of_view {error : Error} (fails : operator.view operands = .error error) :
    error.kind ≠ .cyclicReference := by
  rcases operands with _ | ⟨first, _ | ⟨second, rest⟩⟩
  all_goals
    unfold Operator.view at fails
    split at fails
    all_goals
      simp only [Except.bind_eq_error, pure, Except.pure, oneOperand, noOperand, someOperands,
        badArity] at fails
      grind [fail, badValue, require, count, filterField, kind_ne_of_sortField, sortDirection,
        caseSensitivity, listForm, Error.kind, Cause.kind, Except.bind_eq_error,
        Except.map_eq_error]

end Operator

theorem Namespace.kind_ne_of_read {text : String} {error : Error}
    (fails : Namespace.read text = .error error) : error.kind ≠ .cyclicReference := by
  unfold Namespace.read at fails
  split at fails <;> cases fails
  nofun

namespace Tree

variable {tree : Node} {reference : Address × Option Handle}

theorem visits_node (mark : Mark) (operator : Operator) (operands : List Node) :
    visits (.node mark operator operands) =
      (operator.target?.map fun address => (address, mark.link)).toList ++
        (operands.filter fun operand => operator.looksInto operand.isEverything).flatMap visits := by
  simp only [visits, fold_node, List.filter_map, List.flatMap_map, Function.comp_def]

theorem mem_visits_node {mark : Mark} {operator : Operator} {operands : List Node} :
    reference ∈ visits (.node mark operator operands) ↔
      operator.target? = some reference.1 ∧ mark.link = reference.2 ∨
        ∃ operand ∈ operands, operator.looksInto operand.isEverything = true ∧
          reference ∈ operand.visits := by
  rw [visits_node, List.mem_append, Option.mem_toList, Option.map_eq_some_iff, List.mem_flatMap]
  refine or_congr ⟨?_, ?_⟩ ?_
  · rintro ⟨address, target, rfl⟩
    exact ⟨target, rfl⟩
  · rintro ⟨target, link⟩
    exact ⟨reference.1, target, by rw [link]⟩
  · simp only [List.mem_filter, and_assoc]

/-- What is compiled through are references of the tree. -/
theorem mem_references_of_mem_visits (visited : reference ∈ tree.visits) :
    reference ∈ tree.references := by
  induction tree using Tree.induction with
  | node mark operator operands ih =>
      rw [references_node]
      rcases mem_visits_node.1 visited with ⟨target, link⟩ | ⟨operand, member, looks, inside⟩
      · rw [if_pos (Operator.kind_of_target? target), target, link]
        exact List.mem_singleton.2 rfl
      · have other : operator.kind ≠ .reference := by
          intro kind
          rw [Operator.looksInto, kind] at looks
          cases looks
        rw [if_neg other]
        exact List.mem_flatMap.2 ⟨operand, member, ih operand member inside⟩

end Tree

/-! ## Where a lowering fails -/

namespace Compiling

variable {α β : Type} {error : Error}

/-- Whether a compilation fails in a certain way on some table. -/
def Fails (error : Error) (action : Compiling α) : Prop := ∃ table, action table = .error error

namespace Fails

theorem not_pure (value : α) : ¬ Fails error (Pure.pure value : Compiling α) := by
  rintro ⟨_, fails⟩
  cases fails

theorem not_register (field : String) (isOptional : Bool) :
    ¬ Fails error (Compiling.register field isOptional) := by
  rintro ⟨_, fails⟩
  cases fails

theorem eq_of_throw {other : Error} (fails : Fails error (throw other : Compiling α)) :
    error = other := by
  obtain ⟨_, fails⟩ := fails
  cases fails
  rfl

theorem of_bind {action : Compiling α} {next : α → Compiling β} (fails : Fails error (action >>= next)) :
    Fails error action ∨ ∃ value, Fails error (next value) := by
  obtain ⟨table, fails⟩ := fails
  rcases Except.bind_eq_error.1 fails with first | ⟨⟨value, between⟩, -, later⟩
  · exact .inl ⟨table, first⟩
  · exact .inr ⟨value, between, later⟩

theorem of_map {action : Compiling α} {image : α → β}
    (fails : Fails error (action >>= fun value => Pure.pure (image value))) : Fails error action :=
  fails.of_bind.resolve_right fun ⟨value, fails⟩ => not_pure (image value) fails

theorem of_mapM {ι : Type} {action : ι → Compiling α} {items : List ι}
    (fails : Fails error (items.mapM action)) : ∃ item ∈ items, Fails error (action item) := by
  induction items with
  | nil => exact absurd fails (not_pure [])
  | cons item rest ih =>
      rw [List.mapM_cons] at fails
      rcases fails.of_bind with first | ⟨value, fails⟩
      · exact ⟨item, .head _, first⟩
      · obtain ⟨other, member, later⟩ := ih fails.of_map
        exact ⟨other, .tail _ member, later⟩

theorem of_withOperand {filter : Predicate} {operand : Node × Compiling Predicate}
    (fails : Fails error (withOperand filter operand)) :
    operand.1.isEverything = false ∧ Fails error operand.2 := by
  unfold Medley.withOperand at fails
  split at fails
  · exact absurd fails (not_pure filter)
  · next looks => exact ⟨Bool.eq_false_iff.2 looks, fails.of_map⟩

end Fails

end Compiling

section Lowering

variable {error : Error} {onReference : Address → Compiling Predicate} {operator : Operator} {ι : Type}
  {operands : List ι} {left : ι → Node × Compiling Predicate} {view : View ι}

/-- A node that can be lowered has operands that can be, as far as they are looked into. -/
theorem View.succeeds_operand (reads : operator.view operands = .ok view)
    (succeeds : Succeeds ((view.map left).lower onReference operator)) {operand : ι}
    (member : operand ∈ operands)
    (looks : operator.looksInto (left operand).1.isEverything = true) :
    Succeeds (left operand).2 := by
  have several : ∀ {operands : List ι}, Succeeds ((operands.map left).mapM Prod.snd) →
      ∀ operand ∈ operands, Succeeds (left operand).2 := by
    intro operands succeeds operand member
    rw [List.mapM_map] at succeeds
    exact succeeds.of_mapM operand member
  obtain rfl := Operator.operands_of_view reads
  cases view with
  | reference name space => cases member
  | «universe» => cases member
  | union operands => exact several succeeds.of_bind.1 operand member
  | intersection operands => exact several succeeds.of_bind.1 operand member
  | complement only =>
      obtain rfl := List.mem_singleton.1 member
      exact succeeds.of_bind.1
  | mediaset only | order _ _ only | limit _ _ only =>
      obtain rfl := List.mem_singleton.1 member
      exact succeeds
  | list form ids only =>
      obtain ⟨form, isList⟩ := Operator.isList_of_view reads
      rw [Operator.looksInto, isList] at looks
      cases looks
  | has field only =>
      obtain rfl := List.mem_singleton.1 member
      rw [Operator.looksInto, Operator.kind_of_view reads rfl] at looks
      obtain ⟨column, succeeds⟩ := succeeds.of_bind.2
      exact succeeds.of_withOperand.resolve_left (by simpa using looks)
  | filter test field value caseSensitive only =>
      obtain rfl := List.mem_singleton.1 member
      rw [Operator.looksInto, Operator.kind_of_view reads rfl] at looks
      obtain ⟨column, succeeds⟩ := succeeds.of_bind.2
      obtain ⟨literal, succeeds⟩ := succeeds.of_bind.2
      exact succeeds.of_withOperand.resolve_left (by simpa using looks)

/-- A reference that can be lowered can be followed. -/
theorem View.succeeds_reference {address : Address} (target : operator.target? = some address)
    (reads : operator.view operands = .ok view)
    (succeeds : Succeeds ((view.map left).lower onReference operator)) :
    Succeeds (onReference address) := by
  obtain ⟨text, rfl, stored, read⟩ := Operator.view_of_target? target reads
  simp only [View.map, View.lower, if_neg stored, Option.getD_some, read] at succeeds
  exact succeeds

/-- A number that a filter compares with has been read before, with the filter. -/
theorem exists_filterLiteral {test : FilterTest} {field : Field} {value : String}
    {caseSensitive : Bool} {only : ι}
    (reads : operator.view operands = .ok (.filter test field value caseSensitive only))
    (column : Column) :
    ∃ literal, filterLiteral operator test column value caseSensitive = .ok literal := by
  have isFilter := Operator.kind_of_view reads rfl
  rw [Operator.view, isFilter] at reads
  obtain ⟨_, -, reads⟩ := Except.bind_eq_ok.1 reads
  obtain ⟨wanted, -, reads⟩ := Except.bind_eq_ok.1 reads
  obtain ⟨found, -, reads⟩ := Except.bind_eq_ok.1 reads
  split at reads
  · cases reads
  · next readable =>
    obtain ⟨_, -, same⟩ := Except.bind_eq_ok.1 reads
    cases same
    unfold filterLiteral
    cases test with
    | equals | notEqual | token => exact ⟨_, rfl⟩
    | pattern => cases caseSensitive <;> exact ⟨_, rfl⟩
    | smaller | smallerEq | greater | greaterEq =>
        cases number : Text.readInt64? value with
        | some number => exact ⟨_, rfl⟩
        | none => exact absurd ⟨rfl, number⟩ readable

/-- What is lowered fails where a reference or an operand does, if the reference can be read. -/
theorem View.fails_of_lower (reads : operator.view operands = .ok view)
    (fails : Fails error ((view.map left).lower onReference operator)) :
    (∃ address, operator.target? = some address ∧ Fails error (onReference address)) ∨
      (∃ operand ∈ operands, operator.looksInto (left operand).1.isEverything = true ∧
        Fails error (left operand).2) ∨
      error.kind ≠ .cyclicReference ∧ ¬ view.Refers fun _ => True := by
  have kind : ∀ {kind : Kind}, view.kind? = some kind → operator.kind = kind :=
    fun known => Operator.kind_of_view reads known
  have shown := Operator.operands_of_view reads
  have several : ∀ {some : List ι}, Fails error ((some.map left).mapM Prod.snd) →
      ∃ operand ∈ some, Fails error (left operand).2 := by
    intro some fails
    rw [List.mapM_map] at fails
    exact fails.of_mapM
  have filtered : ∀ {filter : Predicate} {only : ι}, Fails error (withOperand filter (left only)) →
      view.operands = [only] → operator.kind = .has ∨ (∃ test, operator.kind = .filter test) →
      ∃ operand ∈ operands, operator.looksInto (left operand).1.isEverything = true ∧
        Fails error (left operand).2 := by
    intro filter only fails alone kinds
    obtain ⟨kept, fails⟩ := fails.of_withOperand
    refine ⟨only, by rw [← shown, alone]; exact .head _, ?_, fails⟩
    rcases kinds with isHas | ⟨test, isFilter⟩
    · rw [Operator.looksInto, isHas, kept]
      rfl
    · rw [Operator.looksInto, isFilter, kept]
      rfl
  cases view with
  | reference name space =>
      simp only [View.map, View.lower] at fails
      split at fails
      · exact absurd fails (Fails.not_pure _)
      · next stored =>
        cases read : Namespace.read (space.getD "") with
        | ok found =>
            rw [read] at fails
            exact .inl ⟨_, Operator.target?_of_view reads stored read, fails⟩
        | error other =>
            rw [read] at fails
            obtain rfl : error = other := Fails.eq_of_throw (α := Predicate) fails
            refine .inr (.inr ⟨Namespace.kind_ne_of_read read, fun refers => ?_⟩)
            obtain ⟨found, knows, -⟩ := refers stored
            cases read.symm.trans knows
  | «universe» => exact absurd fails (Fails.not_pure _)
  | union some =>
      obtain ⟨operand, member, fails⟩ := several fails.of_map
      exact .inr (.inl ⟨operand, shown ▸ member, by rw [Operator.looksInto, kind rfl], fails⟩)
  | intersection some =>
      obtain ⟨operand, member, fails⟩ := several fails.of_map
      exact .inr (.inl ⟨operand, shown ▸ member, by rw [Operator.looksInto, kind rfl], fails⟩)
  | complement only =>
      exact .inr (.inl ⟨only, shown ▸ .head _, by rw [Operator.looksInto, kind rfl], fails.of_map⟩)
  | mediaset only | order _ _ only | limit _ _ only =>
      exact .inr (.inl ⟨only, shown ▸ .head _, by rw [Operator.looksInto, kind rfl], fails⟩)
  | list form ids only => exact absurd fails (Fails.not_pure _)
  | has field only =>
      obtain ⟨column, fails⟩ := fails.of_bind.resolve_left (Fails.not_register field true)
      exact .inr (.inl (filtered fails rfl (.inl (kind rfl))))
  | filter test field value caseSensitive only =>
      obtain ⟨column, fails⟩ := fails.of_bind.resolve_left (Fails.not_register field.name false)
      obtain ⟨literal, readable⟩ := exists_filterLiteral reads column
      rw [readable] at fails
      exact .inr (.inl (filtered fails rfl (.inr ⟨test, kind rfl⟩)))

end Lowering

namespace Tree

variable {error : Error} {onReference : Option Handle → Address → Compiling Predicate} {tree : Node}

/-- Every reference that a lowered tree was compiled through could be followed. -/
theorem succeeds_of_mem_visits (succeeds : Succeeds (lower onReference tree))
    {reference : Address × Option Handle} (visited : reference ∈ tree.visits) :
    Succeeds (onReference reference.2 reference.1) := by
  induction tree using Tree.induction with
  | node mark operator operands ih =>
      rw [lower_node, map_attach operands fun operand => (operand, lower onReference operand),
        Operator.view_map] at succeeds
      cases reads : operator.view operands.attach with
      | error error =>
          rw [reads] at succeeds
          exact absurd succeeds (not_succeeds_throw error)
      | ok view =>
          rw [reads] at succeeds
          rcases mem_visits_node.1 visited with ⟨target, link⟩ | ⟨operand, member, looks, inside⟩
          · rw [← link]
            exact View.succeeds_reference target reads succeeds
          · exact ih operand member
              (View.succeeds_operand reads succeeds (List.mem_attach _ ⟨operand, member⟩) looks) inside

/-- A tree that cannot be lowered breaks the rules of its kinds, or a reference that it is compiled
through cannot be followed. -/
theorem fails_of_lower (fails : Fails error (lower onReference tree)) :
    (∃ reference ∈ tree.visits, Fails error (onReference reference.2 reference.1)) ∨
      error.kind ≠ .cyclicReference ∧ tree.validate ≠ .ok () := by
  induction tree using Tree.induction with
  | node mark operator operands ih =>
      rw [lower_node, map_attach operands fun operand => (operand, lower onReference operand),
        Operator.view_map] at fails
      cases reads : operator.view operands.attach with
      | error other =>
          rw [reads] at fails
          obtain rfl : error = other := Fails.eq_of_throw (α := Predicate) fails
          refine .inr ⟨Operator.kind_ne_of_view reads, fun valid => ?_⟩
          obtain ⟨⟨view, readable, -⟩, -⟩ := (validate_node ..).1 valid
          rw [Operator.view_attach, reads] at readable
          cases readable
      | ok view =>
          rw [reads] at fails
          rcases View.fails_of_lower reads fails with
            ⟨address, target, fails⟩ | ⟨⟨operand, member⟩, -, looks, fails⟩ | ⟨other, breaks⟩
          · exact .inl ⟨(address, mark.link), mem_visits_node.2 (.inl ⟨target, rfl⟩), fails⟩
          · refine (ih operand member fails).imp ?_ ?_
            · rintro ⟨reference, visited, fails⟩
              exact ⟨reference, mem_visits_node.2 (.inr ⟨operand, member, looks, visited⟩), fails⟩
            · rintro ⟨other, breaks⟩
              exact ⟨other, fun valid => breaks (((validate_node ..).1 valid).2 operand member)⟩
          · refine .inr ⟨other, fun valid => breaks ?_⟩
            obtain ⟨⟨_, readable, refers⟩, -⟩ := (validate_node ..).1 valid
            rw [Operator.view_attach, reads] at readable
            cases readable
            exact (View.refers_map ..).1 refers

end Tree

/-! ## Following references without a limit -/

namespace State

variable {state : State} {visiting : List Handle} {tree target : Node} {handle source : Handle}
  {error : Error}

/-- The predicate of a collection, with references followed as far as they lead.  The handles are
those of the collections that are being compiled: to meet one again is a cycle. -/
def predicateAlong (state : State) (visiting : List Handle) : Node → Compiling Predicate :=
  lower fun link address =>
    match state.follow link address with
    | none => throw { cause := .danglingReference address.name address.space.name }
    | some handle =>
        if _isNew : handle ∈ visiting then
          throw { cause := .cyclicReference address.name address.space.name }
        else match _stored : state.resolve handle with
          | none => throw { cause := .danglingReference address.name address.space.name }
          | some target => state.predicateAlong (handle :: visiting) target
  termination_by (state.unvisited visiting).length
  decreasing_by exact unvisited_cons_lt _isNew (by simp [_stored])

/-- One step down from a tree on a path of references: to an operand, or through a reference into a
collection that is not on the path. -/
inductive Descends (state : State) : List Handle × Node → List Handle × Node → Prop where
  | operand {visiting : List Handle} {tree operand : Node} (member : operand ∈ tree.operands) :
      Descends state (visiting, operand) (visiting, tree)
  | reference {visiting : List Handle} {tree target : Node} {address : Address} {handle : Handle}
      (names : tree.operator.target? = some address)
      (leads : state.follow tree.link address = some handle) (isNew : handle ∉ visiting)
      (stored : state.resolve handle = some target) :
      Descends state (handle :: visiting, target) (visiting, tree)

/-- Every descent ends: an operand is smaller than its tree, and a reference leads into one of the
collections that are not on the path. -/
theorem wellFounded_descends (state : State) : WellFounded state.Descends := by
  let measure : List Handle × Node → Nat × Nat := fun place =>
    ((state.unvisited place.1).length, sizeOf place.2)
  refine Subrelation.wf (r := InvImage (Prod.Lex (· < ·) (· < ·)) measure) ?_
    (InvImage.wf measure (Prod.lex Nat.lt_wfRel Nat.lt_wfRel).wf)
  intro below above step
  cases step with
  | @operand visiting tree operand member =>
      obtain ⟨mark, operator, operands⟩ := tree
      have smaller := List.sizeOf_lt_of_mem member
      refine .right _ ?_
      show sizeOf operand < sizeOf (Tree.node mark operator operands)
      simp only [Tree.node.sizeOf_spec, Tree.operands_node] at smaller ⊢
      omega
  | reference names leads isNew stored =>
      exact .left _ _ (unvisited_cons_lt isNew (by rw [stored]; rfl))

/-- The predicate of the collection that a reference leads to, on a path of collections that are being
compiled. -/
def descend (state : State) (visiting : List Handle) (link : Option Handle) (address : Address) :
    Compiling Predicate :=
  match state.follow link address with
  | none => throw { cause := .danglingReference address.name address.space.name }
  | some handle =>
      if handle ∈ visiting then throw { cause := .cyclicReference address.name address.space.name }
      else match state.resolve handle with
        | none => throw { cause := .danglingReference address.name address.space.name }
        | some target => state.predicateAlong (handle :: visiting) target

theorem predicateAlong_eq_lower (state : State) (visiting : List Handle) :
    state.predicateAlong visiting = lower (state.descend visiting) := by
  rw [predicateAlong]
  refine congrArg lower (funext fun link => funext fun address => ?_)
  unfold descend
  cases state.follow link address with
  | none => rfl
  | some handle =>
      by_cases met : handle ∈ visiting
      · simp only [if_pos met, dif_pos met]
      · simp only [if_neg met, dif_neg met]
        split <;> simp [*]

/-- A descent through a reference leads nowhere, meets its own path or enters a collection. -/
theorem descend_cases (state : State) (visiting : List Handle) (link : Option Handle)
    (address : Address) :
    ((state.follow link address).bind state.resolve = none ∧ ∃ error : Error,
        error.kind = .danglingReference ∧ state.descend visiting link address = throw error) ∨
      ∃ handle, state.follow link address = some handle ∧
        (handle ∈ visiting ∧ (∃ error : Error, error.kind = .cyclicReference ∧
            state.descend visiting link address = throw error) ∨
          handle ∉ visiting ∧ ∃ target, state.resolve handle = some target ∧
            state.descend visiting link address =
              state.predicateAlong (handle :: visiting) target) := by
  unfold descend
  cases leads : state.follow link address with
  | none => exact .inl ⟨rfl, _, rfl, rfl⟩
  | some handle =>
      by_cases met : handle ∈ visiting
      · exact .inr ⟨handle, rfl, .inl ⟨met, _, rfl, if_pos met⟩⟩
      · simp only [if_neg met, Option.bind_some]
        cases stored : state.resolve handle with
        | none => exact .inl ⟨rfl, _, rfl, rfl⟩
        | some target => exact .inr ⟨handle, rfl, .inr ⟨met, target, stored, rfl⟩⟩

/-- A limit that leaves room for every collection that is not on the path is not met. -/
theorem predicateWithin_eq_predicateAlong {budget : Nat}
    (enough : (state.unvisited visiting).length < budget) :
    state.predicateWithin budget visiting = state.predicateAlong visiting := by
  induction budget generalizing visiting with
  | zero => omega
  | succ budget ih =>
      rw [predicateAlong_eq_lower, predicateWithin_eq_lower]
      refine congrArg lower (funext fun link => funext fun address => ?_)
      unfold pursue descend
      cases state.follow link address with
      | none => rfl
      | some handle =>
          by_cases met : handle ∈ visiting
          · simp only [if_pos met]
          · simp only [if_neg met]
            cases stored : state.resolve handle with
            | none => rfl
            | some target =>
                have smaller := unvisited_cons_lt met (by rw [stored]; rfl)
                have enough : (state.unvisited (handle :: visiting)).length < budget := by omega
                simp only [ih enough]

/-- The limit on the number of references that are followed is never met. -/
theorem predicate_eq_predicateAlong (state : State) : state.predicate = state.predicateAlong [] :=
  predicateWithin_eq_predicateAlong (Nat.lt_succ_of_le (state.length_unvisited_le []))

/-! ## Cycles of references -/

/-- Compiling one collection enters another. -/
def Enters (state : State) (source target : Handle) : Prop :=
  ∃ tree, state.resolve source = some tree ∧
    ∃ reference ∈ tree.visits, state.follow reference.2 reference.1 = some target

/-- Compiling a tree comes to a collection, over any number of references. -/
def ComesTo (state : State) (tree : Node) (handle : Handle) : Prop :=
  ∃ reference ∈ tree.visits, ∃ entered, state.follow reference.2 reference.1 = some entered ∧
    Relation.ReflTransGen state.Enters entered handle

/-- Compiling a tree comes to a collection from which it comes to the same collection again. -/
def RunsInCircles (state : State) (tree : Node) : Prop :=
  ∃ handle, state.ComesTo tree handle ∧ Relation.TransGen state.Enters handle handle

theorem comesTo_of_transGen (stored : state.resolve source = some tree)
    (path : Relation.TransGen state.Enters source handle) : state.ComesTo tree handle := by
  obtain ⟨entered, ⟨_, found, reference, visited, leads⟩, further⟩ :=
    Relation.TransGen.head'_iff.1 path
  obtain rfl := Option.some.inj (stored.symm.trans found)
  exact ⟨reference, visited, entered, leads, further⟩

/-- What could be compiled comes to no collection of its path, and to none that comes to itself. -/
theorem not_mem_of_succeeds (succeeds : Succeeds (state.predicateAlong visiting tree))
    (comes : state.ComesTo tree handle) :
    handle ∉ visiting ∧ ¬ Relation.TransGen state.Enters handle handle := by
  generalize left : (state.unvisited visiting).length = count
  induction count using Nat.strongRecOn generalizing visiting tree handle with
  | ind count ih =>
      obtain ⟨reference, visited, entered, leads, path⟩ := comes
      rw [predicateAlong_eq_lower] at succeeds
      have follows := Tree.succeeds_of_mem_visits succeeds visited
      rcases state.descend_cases visiting reference.2 reference.1 with
        ⟨-, error, -, fails⟩ | ⟨found, leads', into⟩
      · exact absurd follows (fails ▸ not_succeeds_throw error)
      obtain rfl := Option.some.inj (leads.symm.trans leads')
      rcases into with ⟨-, error, -, fails⟩ | ⟨isNew, target, stored, enters⟩
      · exact absurd follows (fails ▸ not_succeeds_throw error)
      rw [enters] at follows
      have smaller := left ▸ unvisited_cons_lt isNew (by rw [stored]; rfl)
      have beyond : ∀ {other}, state.ComesTo target other →
          other ∉ entered :: visiting ∧ ¬ Relation.TransGen state.Enters other other :=
        fun comes => ih _ smaller follows comes rfl
      rcases Relation.reflTransGen_iff_eq_or_transGen.1 path with rfl | further
      · exact ⟨isNew, fun cycle => (beyond (comesTo_of_transGen stored cycle)).1 (.head _)⟩
      · obtain ⟨absent, noCycle⟩ := beyond (comesTo_of_transGen stored further)
        exact ⟨fun member => absent (.tail _ member), noCycle⟩

/-- Whether nothing but a cycle can keep a tree from being compiled: it keeps the rules of its kinds, and
each reference that it is compiled through leads to a collection. -/
structure Solid (state : State) (tree : Node) : Prop where
  valid : tree.validate = .ok ()
  leads : ∀ reference ∈ tree.visits,
    ((state.follow reference.2 reference.1).bind state.resolve).isSome

/-- Where a cycle is reported, or nothing else can go wrong, a compilation fails at a reference that meets
the path or at one that enters a collection whose compilation fails. -/
theorem exists_of_fails (fails : Fails error (state.predicateAlong visiting tree))
    (blames : error.kind = .cyclicReference ∨ state.Solid tree) :
    ∃ reference ∈ tree.visits, ∃ entered, state.follow reference.2 reference.1 = some entered ∧
      (entered ∈ visiting ∨ entered ∉ visiting ∧ ∃ target, state.resolve entered = some target ∧
        Fails error (state.predicateAlong (entered :: visiting) target)) := by
  rw [predicateAlong_eq_lower] at fails
  rcases Tree.fails_of_lower fails with ⟨reference, visited, fails⟩ | ⟨other, broken⟩
  · refine ⟨reference, visited, ?_⟩
    rcases state.descend_cases visiting reference.2 reference.1 with
      ⟨nowhere, other, dangling, throws⟩ | ⟨entered, leads, ⟨met, -⟩ | ⟨isNew, target, stored, enters⟩⟩
    · rcases blames with cyclic | solid
      · rw [throws] at fails
        rw [Fails.eq_of_throw fails, dangling] at cyclic
        cases cyclic
      · have leads := solid.leads reference visited
        rw [nowhere] at leads
        cases leads
    · exact ⟨entered, leads, .inl met⟩
    · exact ⟨entered, leads, .inr ⟨isNew, target, stored, enters ▸ fails⟩⟩
  · rcases blames with cyclic | solid
    · exact absurd cyclic other
    · exact absurd solid.valid broken

/-- A collection that cannot be compiled for a cycle comes to one, if the path to it leads there. -/
theorem exists_cycle_of_fails (stored : state.resolve source = some tree)
    (path : ∀ earlier ∈ visiting, Relation.ReflTransGen state.Enters earlier source)
    (fails : Fails error (state.predicateAlong visiting tree))
    (blames : error.kind = .cyclicReference ∨
      ∀ {handle tree}, state.resolve handle = some tree → state.Solid tree) :
    ∃ handle, Relation.ReflTransGen state.Enters source handle ∧
      Relation.TransGen state.Enters handle handle := by
  generalize left : (state.unvisited visiting).length = count
  induction count using Nat.strongRecOn generalizing visiting tree source with
  | ind count ih =>
      obtain ⟨reference, visited, entered, leads, into⟩ :=
        exists_of_fails fails (blames.imp_right fun solid => solid stored)
      have step : state.Enters source entered := ⟨tree, stored, reference, visited, leads⟩
      rcases into with met | ⟨isNew, target, found, fails⟩
      · exact ⟨entered, .single step, .tail' (path entered met) step⟩
      · have smaller := left ▸ unvisited_cons_lt isNew (by rw [found]; rfl)
        have along : ∀ earlier ∈ entered :: visiting,
            Relation.ReflTransGen state.Enters earlier entered := by
          intro earlier member
          rcases List.mem_cons.1 member with rfl | member
          · exact .refl
          · exact (path earlier member).tail step
        obtain ⟨handle, further, cycle⟩ := ih _ smaller found along fails rfl
        exact ⟨handle, .head step further, cycle⟩

/-- A tree that cannot be compiled for a cycle leads into one. -/
theorem runsInCircles_of_fails (fails : Fails error (state.predicate tree))
    (blames : error.kind = .cyclicReference ∨ state.Solid tree ∧
      ∀ {handle tree}, state.resolve handle = some tree → state.Solid tree) :
    state.RunsInCircles tree := by
  rw [predicate_eq_predicateAlong] at fails
  obtain ⟨reference, visited, entered, leads, into⟩ := exists_of_fails fails (blames.imp_right And.left)
  obtain ⟨-, target, stored, fails⟩ := into.resolve_left List.not_mem_nil
  have alone : ∀ earlier ∈ [entered], Relation.ReflTransGen state.Enters earlier entered :=
    fun earlier member => List.mem_singleton.1 member ▸ .refl
  obtain ⟨handle, path, cycle⟩ := exists_cycle_of_fails stored alone fails (blames.imp_right And.right)
  exact ⟨handle, ⟨reference, visited, entered, leads, path⟩, cycle⟩

end State

/-- Peeling reports no cycle. -/
theorem Tree.kind_ne_of_peel {tree : Node} {error : Error} (fails : tree.peel = .error error) :
    error.kind ≠ .cyclicReference := by
  induction tree using Tree.induction with
  | node mark operator operands ih =>
      rw [peel_node] at fails
      rcases Except.bind_eq_error.1 fails with unread | ⟨view, reads, fails⟩
      · exact Operator.kind_ne_of_view unread
      · cases view with
        | order field direction operand =>
            obtain rfl := Operator.operands_of_view reads
            exact ih operand (.head _) (Except.map_eq_error.1 fails)
        | limit start length operand =>
            obtain rfl := Operator.operands_of_view reads
            exact ih operand (.head _) (Except.map_eq_error.1 fails)
        | _ => cases fails

/-- Compiling comes to an end on every state, also where references run in cycles, links and names differ
or lead nowhere.  No descent goes on forever, and the limit on the references that are followed makes no
difference.  A tree that is compiled leads into no cycle, and one for which a cycle is reported does. -/
theorem State.compile_descends (state : State) (defaultBase : String) (tree : Node)
    (params : QueryParams) :
    WellFounded state.Descends ∧ state.predicate = state.predicateAlong [] ∧
      (∀ query, state.compile defaultBase tree params = .ok query → ¬ state.RunsInCircles tree) ∧
      ∀ error, state.compile defaultBase tree params = .error error →
        error.kind = .cyclicReference → state.RunsInCircles tree := by
  refine ⟨state.wellFounded_descends, state.predicate_eq_predicateAlong, ?_, ?_⟩
  · rintro query compiled ⟨handle, comes, cycle⟩
    obtain ⟨peeled, peels, -⟩ := Except.bind_eq_ok.1 compiled
    rw [State.compile_eq peels] at compiled
    obtain ⟨result, lowered, -⟩ := Except.map_eq_ok.1 compiled
    rw [predicate_eq_predicateAlong] at lowered
    exact (not_mem_of_succeeds ⟨_, _, lowered⟩ comes).2 cycle
  · intro error fails cyclic
    cases peels : tree.peel with
    | error other =>
        obtain rfl := Except.error.inj ((compile_eq_error peels defaultBase params).symm.trans fails)
        exact absurd cyclic (Tree.kind_ne_of_peel peels)
    | ok peeled =>
        rw [State.compile_eq peels] at fails
        exact runsInCircles_of_fails ⟨_, Except.map_eq_error.1 fails⟩ (.inl cyclic)

/-- Two collections that refer to each other: a reference to one of them runs in circles, and a party
shuffle over it does not. -/
theorem State.compile_descends_mutual :
    let state : State :=
      { slots := [some (.reference ⟨0, none⟩ "Jazz" "Collections"),
          some (.unary ⟨1, none⟩ { kind := .complement }
            (.reference ⟨2, none⟩ "Rock" "Collections"))]
        collections := SortedMap.ofList [("Rock", ⟨0⟩), ("Jazz", ⟨1⟩)] }
    let rock : Node := .reference ⟨3, none⟩ "Rock" "Collections"
    let shuffle : Node := .unary ⟨4, none⟩ { kind := .list .partyShuffle, ids := [1] } rock
    (∃ error, state.compile "url" rock {} = .error error ∧ error.kind = .cyclicReference ∧
        state.RunsInCircles rock) ∧
      ∃ query, state.compile "url" shuffle {} = .ok query ∧ ¬ state.RunsInCircles shuffle := by
  intro state rock shuffle
  obtain ⟨-, -, -, reported⟩ := state.compile_descends "url" rock {}
  obtain ⟨-, -, compiled, -⟩ := state.compile_descends "url" shuffle {}
  exact ⟨⟨_, rfl, rfl, reported _ rfl rfl⟩, _, rfl, compiled _ rfl⟩

end Medley
