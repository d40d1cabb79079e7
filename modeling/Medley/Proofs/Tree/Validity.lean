import Medley.Node
import Medley.Proofs.Sequencing

/-!
# Trees that keep the rules of their kinds

A node is checked before its operands, so a check passes exactly when the root can be read and every
operand passes.  A check that also tests references passes exactly when the tree keeps the rules of
its kinds and every reference in it passes the test (`Tree.check_eq_ok_iff`).
-/

namespace Medley

/-- The kind of the operators that are read as a view; a list may be read as one of another form. -/
def View.kind? {ω : Type} : View ω → Option Kind
  | .reference _ _ => some .reference
  | .universe => some .universe
  | .union _ => some .union
  | .intersection _ => some .intersection
  | .complement _ => some .complement
  | .mediaset _ => some .mediaset
  | .has _ _ => some .has
  | .filter test _ _ _ _ => some (.filter test)
  | .order _ _ _ => some .order
  | .limit _ _ _ => some .limit
  | .list _ _ _ => none

namespace Operator

variable {ω υ : Type} (image : ω → υ) (operator : Operator)

theorem noOperand_map (operands : List ω) :
    operator.noOperand (operands.map image) = operator.noOperand operands := by
  cases operands <;> simp [noOperand, badArity]

theorem oneOperand_map (operands : List ω) :
    operator.oneOperand (operands.map image) = (operator.oneOperand operands).map image := by
  match operands with
  | [] => rfl
  | [_] => rfl
  | _ :: _ :: _ => simp [oneOperand, badArity, fail, Except.map]

theorem someOperands_map (operands : List ω) :
    operator.someOperands (operands.map image) =
      (operator.someOperands operands).map (List.map image) := by
  cases operands <;> rfl

/-- Reading an operator does not look into its operands. -/
theorem view_map (operands : List ω) :
    operator.view (operands.map image) = (operator.view operands).map (View.map image) := by
  unfold view
  split <;> simp only [noOperand_map, oneOperand_map, someOperands_map, Except.map_bind,
    Except.bind_map, apply_ite (Except.map (View.map image))] <;> rfl

variable {image operator}

theorem operands_eq_nil_of_reference {operands : List ω} {view : View ω}
    (reads : operator.view operands = .ok view) (reference : operator.kind = .reference) :
    operands = [] := by
  rw [Operator.view, reference] at reads
  obtain ⟨_, none, -⟩ := Except.bind_eq_ok.1 reads
  cases operands with
  | nil => rfl
  | cons => cases none

/-- A reference that can be read has a name, and a namespace unless it is the whole library. -/
theorem view_reference_eq_ok {view : View ω} (reference : operator.kind = .reference) :
    operator.view ([] : List ω) = .ok view ↔
      ∃ name, operator.attributes.get? Key.reference = some name ∧
        (name = allMedia ∨ (operator.attributes.get? Key.space).isSome) ∧
        view = .reference name (operator.attributes.get? Key.space) := by
  simp only [Operator.view, reference, noOperand, require]
  cases operator.attributes.get? Key.reference with
  | none => simp [bind, Except.bind, fail]
  | some name =>
      by_cases all : name = allMedia <;>
        cases operator.attributes.get? Key.space <;>
          simp [bind, Except.bind, pure, Except.pure, fail, all, eq_comm]

/-- An operator is of the kind that it is read as. -/
theorem kind_of_view {operands : List ω} {view : View ω} {kind : Kind}
    (reads : operator.view operands = .ok view) (known : view.kind? = some kind) :
    operator.kind = kind := by
  unfold Operator.view at reads
  split at reads
  all_goals
    simp only [Except.bind_eq_ok, pure, Except.pure] at reads
    repeat' obtain ⟨_, -, reads⟩ := reads
    try split at reads
  all_goals grind [fail, badValue, Except.bind_eq_ok, View.kind?]

theorem target?_of_kind_ne (other : operator.kind ≠ .reference) : operator.target? = none := by
  simp [target?, other]

theorem kind_of_target? {address : Address} (target : operator.target? = some address) :
    operator.kind = .reference :=
  Decidable.byContradiction fun other => by simp [target?_of_kind_ne other] at target

end Operator

namespace View

variable {ω υ : Type}

/-- What a check asks of a node by itself: a reference to a stored collection names a namespace, and
the address that it names passes a test. -/
def Refers (accepts : Address → Prop) : View ω → Prop
  | .reference name space =>
      name ≠ allMedia → ∃ read, Namespace.read (space.getD "") = .ok read ∧ accepts ⟨read, name⟩
  | _ => True

@[simp] theorem refers_map (accepts : Address → Prop) (image : ω → υ) (view : View ω) :
    (view.map image).Refers accepts ↔ view.Refers accepts := by
  cases view <;> rfl

end View

/-- What a reference that can be read refers to is what its operator names. -/
theorem Operator.refers_iff {operator : Operator} {ω : Type} {operands : List ω} {view : View ω}
    (reads : operator.view operands = .ok view) (accepts : Address → Prop) :
    view.Refers accepts ↔ view.Refers (fun _ => True) ∧
      ∀ address, operator.target? = some address → accepts address := by
  by_cases reference : operator.kind = .reference
  · obtain rfl := operands_eq_nil_of_reference reads reference
    obtain ⟨name, named, spaced, rfl⟩ := (view_reference_eq_ok reference).1 reads
    by_cases all : name = allMedia
    · simp [View.Refers, target?, reference, named, all]
    · obtain ⟨space, found⟩ := Option.isSome_iff_exists.1 (spaced.resolve_left all)
      simp only [View.Refers, target?, reference, named, found, Namespace.read, if_true,
        Option.bind_eq_bind, Option.bind_some, if_neg all, Option.getD_some]
      cases Namespace.ofName? space <;> simp [fail, all]
  · have target := target?_of_kind_ne reference
    cases view with
    | reference name space => exact absurd (kind_of_view reads rfl) reference
    | _ => simp [View.Refers, target]

/-- The target of a reference that can be read. -/
theorem Operator.target?_of_view {ω : Type} {operator : Operator} {operands : List ω} {name : String}
    {text : Option String} {space : Namespace}
    (reads : operator.view operands = .ok (.reference name text)) (stored : name ≠ allMedia)
    (read : Namespace.read (text.getD "") = .ok space) : operator.target? = some ⟨space, name⟩ := by
  have reference := kind_of_view reads rfl
  obtain rfl := operands_eq_nil_of_reference reads reference
  obtain ⟨name', named, spaced, same⟩ := (view_reference_eq_ok reference).1 reads
  cases same
  obtain ⟨text, found⟩ := Option.isSome_iff_exists.1 (spaced.resolve_left stored)
  rw [found, Option.getD_some] at read
  have known : Namespace.ofName? text = some space := by
    unfold Namespace.read at read
    split at read
    · next known => exact known.trans (congrArg some (Except.ok.inj read))
    · cases read
  simp [target?, reference, named, stored, found, known]

/-- A filter is read by its attributes. -/
theorem Operator.view_filter_eq_ok {ω : Type} {operator : Operator} {test : FilterTest} {field : Field}
    {value : String} {caseSensitive : Bool} {operand : ω} :
    operator.view [operand] = .ok (.filter test field value caseSensitive operand) ↔
      operator.kind = .filter test ∧ operator.require Key.value = .ok value ∧
        operator.filterField = .ok field ∧
        ¬ (Operator.needsInteger test field ∧ Text.readInt64? value = none) ∧
        operator.caseSensitivity = .ok caseSensitive := by
  constructor
  · intro reads
    have kind := kind_of_view reads rfl
    rw [Operator.view, kind] at reads
    obtain ⟨_, only, reads⟩ := Except.bind_eq_ok.1 reads
    obtain ⟨value, required, reads⟩ := Except.bind_eq_ok.1 reads
    obtain ⟨field, looks, reads⟩ := Except.bind_eq_ok.1 reads
    split at reads
    · cases reads
    · next number =>
      obtain ⟨caseSensitive, cases, same⟩ := Except.bind_eq_ok.1 reads
      obtain ⟨-, rfl, rfl, rfl, -⟩ := View.filter.inj (Except.ok.inj same)
      exact ⟨kind, required, looks, number, cases⟩
  · rintro ⟨kind, required, looks, number, cases⟩
    rw [Operator.view, kind]
    simp only [Operator.oneOperand, required, looks, cases]
    exact if_neg number

/-- A filter that ignores case is read with its field and its value. -/
theorem Operator.view_filter {ω : Type} {operator : Operator} {test : FilterTest} {field : Field}
    {value : String} (kind : operator.kind = .filter test)
    (compared : operator.attributes.get? Key.value = some value)
    (looks : operator.filterField = .ok field)
    (plain : operator.attributes.get? Key.caseSensitive = none)
    (number : Operator.needsInteger test field → (Text.readInt64? value).isSome) (operand : ω) :
    operator.view [operand] = .ok (.filter test field value false operand) := by
  refine view_filter_eq_ok.2 ⟨kind, ?_, looks, fun unread => ?_, ?_⟩
  · rw [Operator.require, compared]
  · exact absurd (number unread.1) (by rw [unread.2]; exact Bool.false_ne_true)
  · rw [Operator.caseSensitivity, plain]

/-- The test that a check makes of what a view refers to. -/
def View.test {ω : Type} (onReference : Address → Except Error Unit) : View ω → Except Error Unit
  | .reference name space =>
      if name = allMedia then .ok ()
      else Namespace.read (space.getD "") >>= fun space => onReference ⟨space, name⟩
  | _ => .ok ()

@[simp] theorem View.test_map {ω υ : Type} (onReference : Address → Except Error Unit)
    (image : ω → υ) (view : View ω) : (view.map image).test onReference = view.test onReference := by
  cases view <;> rfl

/-- The test of a view depends on that of the address that the operator names alone. -/
theorem View.test_congr {ω : Type} {operator : Operator} {operands : List ω} {view : View ω}
    (reads : operator.view operands = .ok view) {onReference onReference' : Address → Except Error Unit}
    (same : ∀ address, operator.target? = some address →
      onReference address = onReference' address) :
    view.test onReference = view.test onReference' := by
  cases view with
  | reference name space =>
      simp only [test]
      split
      · rfl
      · next stored =>
        cases read : Namespace.read (space.getD "") with
        | error error => rfl
        | ok found => exact same _ (Operator.target?_of_view reads stored read)
  | _ => rfl

theorem View.test_eq_ok {ω : Type} {onReference : Address → Except Error Unit} {view : View ω} :
    view.test onReference = .ok () ↔ view.Refers fun address => onReference address = .ok () := by
  cases view with
  | reference name space =>
      by_cases all : name = allMedia
      · simp [test, Refers, all]
      · simp [test, Refers, all, Except.bind_eq_ok]
  | _ => simp [test, Refers]

namespace Tree

variable {α : Type}

/-- A check reads a node, tests what it refers to, and goes on with its operands. -/
theorem check_eq_bind (onReference : α → Address → Except Error Unit) (mark : α)
    (operator : Operator) (operands : List (Tree α)) :
    check onReference (.node mark operator operands) = (do
      (← operator.view operands).test (onReference mark)
      forM operands (check onReference)) := by
  have below : ∀ step : Tree α → Except Error Unit,
      forM (operands.map fun operand => (operand, step operand)) Prod.snd = forM operands step :=
    fun step => List.forM_map
  unfold check
  rw [fold_node, Operator.view_map, Except.map_bind]
  congr 1
  funext view
  cases view with
  | reference name space =>
      simp only [View.map, List.forM_eq_forM, below, View.test]
      by_cases stored : name = allMedia
      · simp only [stored, ne_eq, not_true_eq_false, if_false, if_true]
        rfl
      · simp only [stored, ne_eq, not_false_eq_true, if_true, if_false, bind_assoc]
  | _ => simp only [View.map, List.forM_eq_forM, below]; rfl

theorem check_node (onReference : α → Address → Except Error Unit) (mark : α)
    (operator : Operator) (operands : List (Tree α)) :
    check onReference (.node mark operator operands) = .ok () ↔
      (∃ view, operator.view operands = .ok view ∧
        view.Refers fun address => onReference mark address = .ok ()) ∧
      ∀ operand ∈ operands, check onReference operand = .ok () := by
  rw [check_eq_bind, Except.bind_eq_ok, ← exists_and_right]
  refine exists_congr fun view => ?_
  rw [Except.unit_bind_eq_ok, View.test_eq_ok, List.forM_eq_ok, and_assoc]

theorem validate_node (mark : α) (operator : Operator) (operands : List (Tree α)) :
    validate (.node mark operator operands) = .ok () ↔
      (∃ view, operator.view operands = .ok view ∧ view.Refers fun _ => True) ∧
      ∀ operand ∈ operands, operand.validate = .ok () := by
  simp only [validate, check_node]

/-- Whether no reference in a tree owns operands. -/
def BareReferences (tree : Tree α) : Prop :=
  ∀ node ∈ tree.nodes, node.kind = .reference → node.operands = []

theorem bareReferences_node {mark : α} {operator : Operator} {operands : List (Tree α)} :
    BareReferences (.node mark operator operands) ↔
      (operator.kind = .reference → operands = []) ∧
        ∀ operand ∈ operands, operand.BareReferences := by
  simp only [BareReferences, nodes_node, List.mem_cons, List.mem_flatMap, forall_eq_or_imp]
  refine and_congr Iff.rfl ⟨fun all operand member node inside => ?_, ?_⟩
  · exact all node ⟨operand, member, inside⟩
  · rintro all node ⟨operand, member, inside⟩
    exact all operand member node inside

/-- The rules of their kind leave references no operands. -/
theorem bareReferences_of_validate {tree : Tree α} (valid : tree.validate = .ok ()) :
    tree.BareReferences := by
  induction tree using Tree.induction with
  | node mark operator operands ih =>
      obtain ⟨⟨view, reads, -⟩, below⟩ := (validate_node ..).1 valid
      exact bareReferences_node.2 ⟨Operator.operands_eq_nil_of_reference reads,
        fun operand member => ih operand member (below operand member)⟩

theorem references_node (mark : Mark) (operator : Operator) (operands : List Node) :
    references (.node mark operator operands) =
      if operator.kind = .reference then
        (operator.target?.map fun address => (address, mark.link)).toList
      else operands.flatMap references := by
  simp only [references, fold_node, List.flatMap_map]

/-- References are listed wherever they stand. -/
theorem mem_references_of_mem_nodes {tree node : Node} (bare : tree.BareReferences)
    (member : node ∈ tree.nodes) (reference : node.kind = .reference) {address : Address}
    (target : node.operator.target? = some address) : (address, node.link) ∈ tree.references := by
  induction tree using Tree.induction with
  | node mark operator operands ih =>
      obtain ⟨noOperands, below⟩ := bareReferences_node.1 bare
      rw [references_node]
      rw [nodes_node, List.mem_cons, List.mem_flatMap] at member
      rcases member with rfl | ⟨operand, inside, member⟩
      · have target : operator.target? = some address := target
        have kind : operator.kind = .reference := reference
        rw [if_pos kind, target]
        exact List.mem_singleton.2 rfl
      · have other : operator.kind ≠ .reference := fun kind => by
          rw [noOperands kind] at inside
          cases inside
        rw [if_neg other]
        exact List.mem_flatMap.2 ⟨operand, inside, ih operand inside (below operand inside) member⟩

/-- References are nodes. -/
theorem exists_mem_nodes_of_mem_references {tree : Node} {reference : Address × Option Handle}
    (member : reference ∈ tree.references) :
    ∃ node ∈ tree.nodes, node.operator.target? = some reference.1 ∧ node.link = reference.2 := by
  induction tree using Tree.induction with
  | node mark operator operands ih =>
      rw [references_node] at member
      rw [nodes_node]
      split at member
      · obtain ⟨address, target, rfl⟩ := Option.map_eq_some_iff.1 (Option.mem_toList.1 member)
        exact ⟨_, .head _, target, rfl⟩
      · obtain ⟨operand, inside, member⟩ := List.mem_flatMap.1 member
        obtain ⟨node, below, target, link⟩ := ih operand inside member
        exact ⟨node, .tail _ (List.mem_flatMap.2 ⟨operand, inside, below⟩), target, link⟩

/-- A check of a tree is a check of its kinds and of every reference in it. -/
theorem check_eq_ok_iff (onReference : Option Handle → Address → Except Error Unit) (tree : Node) :
    tree.check (fun mark => onReference mark.link) = .ok () ↔
      tree.validate = .ok () ∧
        ∀ reference ∈ tree.references, onReference reference.2 reference.1 = .ok () := by
  induction tree using Tree.induction with
  | node mark operator operands ih =>
      rw [check_node, validate_node]
      have splits : ∀ view, operator.view operands = .ok view →
          ((view.Refers fun address => onReference mark.link address = .ok ()) ↔
            view.Refers (fun _ => True) ∧
              ∀ address, operator.target? = some address →
                onReference mark.link address = .ok ()) :=
        fun _ reads => Operator.refers_iff reads _
      rw [references_node]
      by_cases reference : operator.kind = .reference
      · constructor
        · rintro ⟨⟨view, reads, refers⟩, below⟩
          obtain rfl := Operator.operands_eq_nil_of_reference reads reference
          rw [splits view reads] at refers
          refine ⟨⟨⟨view, reads, refers.1⟩, by simp⟩, ?_⟩
          simpa [reference] using refers.2
        · rintro ⟨⟨⟨view, reads, refers⟩, below⟩, tests⟩
          obtain rfl := Operator.operands_eq_nil_of_reference reads reference
          refine ⟨⟨view, reads, (splits view reads).2 ⟨refers, ?_⟩⟩, by simp⟩
          simpa [reference] using tests
      · have noTarget := Operator.target?_of_kind_ne reference
        have same : ∀ view, operator.view operands = .ok view →
            ((view.Refers fun address => onReference mark.link address = .ok ()) ↔
              view.Refers fun _ => True) := by
          intro view reads
          simp [splits view reads, noTarget]
        rw [if_neg reference]
        constructor
        · rintro ⟨⟨view, reads, refers⟩, below⟩
          refine ⟨⟨⟨view, reads, (same view reads).1 refers⟩, fun operand member =>
            ((ih operand member).1 (below operand member)).1⟩, fun found member => ?_⟩
          obtain ⟨operand, inside, here⟩ := List.mem_flatMap.1 member
          exact ((ih operand inside).1 (below operand inside)).2 found here
        · rintro ⟨⟨⟨view, reads, refers⟩, below⟩, tests⟩
          refine ⟨⟨view, reads, (same view reads).2 refers⟩, fun operand member =>
            (ih operand member).2 ⟨below operand member, fun found here =>
              tests found (List.mem_flatMap.2 ⟨operand, member, here⟩)⟩⟩

end Tree

end Medley
