import Medley.Proofs.Meaning.Agreement
import Medley.Proofs.Tree.Substitution

/-!
# Predicates of trees that differ in their references

A tree is lowered node by node, so trees of one shape are lowered alike if their references are, and
a tree in which references were replaced is lowered as before if what was put in is lowered as the
references were (`Tree.lower_agrees`).  A filter drops an operand that is the whole library, which is
where a replacement may show.
-/

namespace Medley

open Compiling

/-- The predicate of a node, given its operands with their predicates. -/
def View.lower (onReference : Address → Compiling Predicate) (operator : Operator) :
    View (Node × Compiling Predicate) → Compiling Predicate
  | .reference name space => do
      if name = allMedia then return .always
      else onReference ⟨← Namespace.read (space.getD ""), name⟩
  | .universe => return .always
  | .union operands => return .any (← operands.mapM Prod.snd)
  | .intersection operands => return .all (← operands.mapM Prod.snd)
  | .complement operand => return .not (← operand.2)
  | .mediaset operand => operand.2
  | .order _ _ operand => operand.2
  | .limit _ _ operand => operand.2
  | .has field operand => do withOperand (.has (← Compiling.register field true)) operand
  | .filter test field value caseSensitive operand => do
      let column ← Compiling.register field.name false
      let (comparison, literal) ← (filterLiteral operator test column value caseSensitive)
      withOperand (.compare column comparison literal caseSensitive) operand
  | .list _ ids _ => return if ids.isEmpty then .never else .inIds ids

theorem lower_node (onReference : Option Handle → Address → Compiling Predicate) (mark : Mark)
    (operator : Operator) (operands : List Node) :
    lower onReference (.node mark operator operands) =
      (liftM (operator.view (operands.map fun operand => (operand, lower onReference operand))) >>=
        View.lower (onReference mark.link) operator) := by
  unfold lower
  rw [Tree.fold_node]
  congr 1

section Agreement

variable {related : Predicate → Predicate → Prop} {lenient : Prop}
  {onReference onReference' : Address → Compiling Predicate}

/-- What the parent of two nodes asks of them: that they are lowered alike, and that the first is
everything if the second is dropped as such. -/
structure Alike (related : Predicate → Predicate → Prop) (lenient : Prop)
    (left right : Node × Compiling Predicate) : Prop where
  agrees : Agrees related lenient left.2 right.2
  dropped : left.1.isEverything = right.1.isEverything ∨
    left.1.isEverything = false ∧ right.1.isEverything = true ∧ Predicate.Absorbs related ∧
      Agrees related lenient left.2 (pure .always)

theorem Alike.withOperand (congruence : Predicate.Congruence related)
    {left right : Node × Compiling Predicate} (alike : Alike related lenient left right)
    (filter : Predicate) :
    Agrees related lenient (withOperand filter left) (withOperand filter right) := by
  unfold Medley.withOperand
  rcases alike.dropped with same | ⟨kept, dropped, absorbs, everything⟩
  · rw [same]
    split
    · exact .pure (congruence.refl filter)
    · exact alike.agrees.bind fun _ _ operands =>
        .pure (congruence.all (.cons (congruence.refl filter) (.cons operands .nil)))
  · rw [kept, dropped, if_neg Bool.false_ne_true, if_pos rfl]
    intro table
    have step := everything table
    simp only [Bind.bind, StateT.bind]
    generalize left.2 table = before at step
    cases step with
    | ok _ always => exact .ok table (absorbs always)
    | lenient allowed error other => exact .lenient allowed error _

/-- Nodes with alike operands are lowered alike if the references among them are. -/
theorem View.lower_agrees (congruence : Predicate.Congruence related) {operator : Operator}
    (references : ∀ address, operator.target? = some address →
      Agrees related lenient (onReference address) (onReference' address))
    {ι : Type} {left right : ι → Node × Compiling Predicate}
    (alike : ∀ operand, Alike related lenient (left operand) (right operand)) (operands : List ι) :
    Agrees related lenient
      (liftM (operator.view (operands.map left)) >>= View.lower onReference operator)
      (liftM (operator.view (operands.map right)) >>= View.lower onReference' operator) := by
  rw [Operator.view_map, Operator.view_map]
  cases reads : operator.view operands with
  | error error => exact fun _ => .error error
  | ok view =>
      show Agrees related lenient (View.lower onReference operator (view.map left))
        (View.lower onReference' operator (view.map right))
      have each : ∀ operands : List ι, Agrees (List.Forall₂ related) lenient
          ((operands.map left).mapM Prod.snd) ((operands.map right).mapM Prod.snd) := by
        intro operands
        rw [List.mapM_map, List.mapM_map]
        exact .mapM fun operand _ => (alike operand).agrees
      cases view with
      | reference name space =>
          simp only [View.map, View.lower]
          split
          · exact .pure (congruence.refl _)
          · next stored =>
            cases read : Namespace.read (space.getD "") with
            | error error => exact fun _ => .error error
            | ok found => exact references _ (Operator.target?_of_view reads stored read)
      | «universe» => exact .pure (congruence.refl _)
      | union operands => exact (each operands).bind fun _ _ same => .pure (congruence.any same)
      | intersection operands => exact (each operands).bind fun _ _ same => .pure (congruence.all same)
      | complement operand =>
          exact (alike operand).agrees.bind fun _ _ same => .pure (congruence.not same)
      | mediaset operand => exact (alike operand).agrees
      | order field direction operand => exact (alike operand).agrees
      | limit start length operand => exact (alike operand).agrees
      | list form ids operand => exact .pure (congruence.refl _)
      | has field operand =>
          refine Agrees.refl.bind fun column _ same => ?_
          cases same
          exact (alike operand).withOperand congruence _
      | filter test field value caseSensitive operand =>
          refine Agrees.refl.bind fun column _ same => ?_
          cases same
          cases filterLiteral operator test column value caseSensitive with
          | error error => exact fun _ => .error error
          | ok literal => exact (alike operand).withOperand congruence _

/-- The nodes whose shapes are images, paired with what they are images of. -/
theorem exists_alike_pairs {alike : Node → Node → Prop} {image : Node → Shape}
    {operands operands' : List Node}
    (shapes : operands'.map Tree.shape = operands.map image)
    (each : ∀ operand ∈ operands, ∀ operand', operand'.shape = image operand →
      alike operand operand') :
    ∃ pairs : List { pair : Node × Node // alike pair.1 pair.2 },
      pairs.map (fun pair => pair.1.1) = operands ∧ pairs.map (fun pair => pair.1.2) = operands' := by
  rw [← List.forall₂_eq_eq_eq, List.forall₂_map_left_iff, List.forall₂_map_right_iff] at shapes
  exact exists_pairs (forall₂_of_mem shapes.flip each)

end Agreement

namespace Tree

theorem isEverything_shape (node : Node) : node.shape.isEverything = node.isEverything := by
  obtain ⟨mark, operator, operands⟩ := node
  rw [shape_node]
  rfl

theorem isEverything_of_target? {α : Type} {mark : α} {operator : Operator}
    {operands : List (Tree α)} {address : Address} (target : operator.target? = some address) :
    isEverything (.node mark operator operands) = false := by
  have reference := Operator.kind_of_target? target
  simp only [Operator.target?, reference, if_true, Option.bind_eq_bind,
    Option.bind_eq_some_iff] at target
  obtain ⟨name, named, target⟩ := target
  split at target
  · cases target
  · next stored => simp [isEverything, kind, reference, attribute?, attributes, named, stored]

theorem lower_everything {node : Node} (everything : node.isEverything = true)
    (valid : node.validate = .ok ()) (onReference : Option Handle → Address → Compiling Predicate) :
    lower onReference node = pure .always := by
  obtain ⟨mark, operator, operands⟩ := node
  obtain ⟨⟨view, reads, -⟩, -⟩ := (validate_node ..).1 valid
  rw [lower_node, Operator.view_map, reads]
  show View.lower _ operator (view.map _) = _
  unfold isEverything at everything
  split at everything
  · next whole =>
    have whole : operator.kind = .universe := whole
    rw [Operator.view, whole] at reads
    obtain ⟨_, -, same⟩ := Except.bind_eq_ok.1 reads
    cases same
    rfl
  · next reference =>
    have reference : operator.kind = .reference := reference
    obtain rfl := Operator.operands_eq_nil_of_reference reads reference
    obtain ⟨name, named, -, rfl⟩ := (Operator.view_reference_eq_ok reference).1 reads
    have found : operator.attributes.get? Key.reference = some allMedia := by
      simpa [attribute?, attributes] using everything
    obtain rfl := Option.some.inj (named.symm.trans found)
    rfl
  · cases everything

/-- The predicate of a reference to a stored collection. -/
theorem lower_reference {mark : Mark} {operator : Operator} {operands : List Node}
    {address : Address} (target : operator.target? = some address)
    (valid : validate (.node mark operator operands) = .ok ())
    (onReference : Option Handle → Address → Compiling Predicate) :
    lower onReference (.node mark operator operands) = onReference mark.link address := by
  obtain ⟨⟨view, reads, refers⟩, -⟩ := (validate_node ..).1 valid
  have reference := Operator.kind_of_target? target
  obtain rfl := Operator.operands_eq_nil_of_reference reads reference
  obtain ⟨name, named, spaced, rfl⟩ := (Operator.view_reference_eq_ok reference).1 reads
  rw [lower_node, Operator.view_map, reads]
  simp only [Operator.target?, reference, if_true, named, Option.bind_eq_bind,
    Option.bind_some] at target
  split at target
  · cases target
  · next stored =>
    obtain ⟨space, read, -⟩ := refers stored
    obtain ⟨text, found, target⟩ := Option.bind_eq_some_iff.1 target
    obtain ⟨space', known, same⟩ := Option.bind_eq_some_iff.1 target
    cases same
    show View.lower _ operator (.reference name _) = _
    simp only [View.lower, if_neg stored, found, Option.getD_some]
    simp only [Namespace.read, known]
    rfl

section Referring

variable {α : Type} {mark : α} {operator : Operator} {operands : List (Tree α)}

theorem mem_referring_self {address : Address} (target : operator.target? = some address) :
    operator ∈ referring (.node mark operator operands) := by
  rw [referring_node, if_pos (Operator.kind_of_target? target)]
  exact List.mem_singleton_self _

/-- References own no operands, so those of an operand are those of the whole tree. -/
theorem mem_referring_of_operand (valid : validate (.node mark operator operands) = .ok ())
    {operand : Tree α} (member : operand ∈ operands) {reference : Operator}
    (inside : reference ∈ operand.referring) :
    reference ∈ referring (.node mark operator operands) := by
  obtain ⟨⟨view, reads, -⟩, -⟩ := (validate_node ..).1 valid
  rw [referring_node]
  split
  · next isReference =>
    obtain rfl := Operator.operands_eq_nil_of_reference reads isReference
    cases member
  · exact List.mem_flatMap.2 ⟨operand, member, inside⟩

end Referring

variable {related : Predicate → Predicate → Prop} {lenient : Prop}
  {onReference onReference' : Address → Compiling Predicate} {image : Operator → Option Shape}

/-- A tree in which references were replaced is lowered as before if what was put in is lowered as
the references were. -/
theorem alike_of_substitute (congruence : Predicate.Congruence related) {node node' : Node}
    (valid : node.validate = .ok ()) (shapes : node'.shape = node.substitute image)
    (targets : ∀ operator shape, image operator = some shape →
      operator.target?.isSome ∧ shape.validate = .ok ())
    (absorbs : ∀ operator ∈ node.referring, ∀ shape, image operator = some shape →
      shape.isEverything = true → Predicate.Absorbs related)
    (kept : ∀ operator ∈ node.referring, image operator = none →
      ∀ address, operator.target? = some address →
        Agrees related lenient (onReference address) (onReference' address))
    (replaced : ∀ operator ∈ node.referring, ∀ shape address, image operator = some shape →
      operator.target? = some address → ∀ put : Node, put.shape = shape →
        Agrees related lenient (onReference address) (lower (fun _ => onReference') put)) :
    Alike related lenient (node, lower (fun _ => onReference) node)
      (node', lower (fun _ => onReference') node') := by
  induction node using Tree.induction generalizing node' with
  | node mark operator operands ih =>
      rw [substitute_node] at shapes
      cases replaces : image operator with
      | some shape =>
          obtain ⟨hasTarget, shapeValid⟩ := targets operator shape replaces
          obtain ⟨address, target⟩ := Option.isSome_iff_exists.1 hasTarget
          have member : operator ∈ referring (.node mark operator operands) :=
            mem_referring_self target
          rw [replaces, Option.getD_some] at shapes
          have agrees := replaced operator member shape address replaces target node' shapes
          have here := lower_reference target valid fun _ => onReference
          refine ⟨by rw [here]; exact agrees, ?_⟩
          rw [isEverything_of_target? target]
          cases everything : node'.isEverything with
          | false => exact .inl rfl
          | true =>
              refine .inr ⟨rfl, rfl, absorbs operator member shape replaces ?_, ?_⟩
              · rw [← shapes, isEverything_shape, everything]
              · rw [here, ← lower_everything everything
                  (validate_of_shape_eq ((shape_shape shape).trans shapes.symm) shapeValid)]
                exact agrees
      | none =>
          obtain ⟨mark', operator', operands'⟩ := node'
          rw [replaces, Option.getD_none, shape_node, Tree.node.injEq] at shapes
          obtain ⟨-, rfl, shapes⟩ := shapes
          obtain ⟨⟨view, reads, -⟩, validBelow⟩ := (validate_node ..).1 valid
          have below : ∀ operand ∈ operands, ∀ reference ∈ operand.referring,
              reference ∈ referring (.node mark operator' operands) :=
            fun operand member reference inside => mem_referring_of_operand valid member inside
          have own : ∀ address, operator'.target? = some address →
              Agrees related lenient (onReference address) (onReference' address) := by
            intro address target
            exact kept operator' (mem_referring_self target) replaces address target
          have each : ∀ operand ∈ operands, ∀ operand' : Node,
              operand'.shape = operand.substitute image →
              Alike related lenient (operand, lower (fun _ => onReference) operand)
                (operand', lower (fun _ => onReference') operand') := by
            intro operand member operand' same
            exact ih operand member (validBelow operand member) same
              (fun reference inside => absorbs reference (below operand member reference inside))
              (fun reference inside => kept reference (below operand member reference inside))
              (fun reference inside => replaced reference (below operand member reference inside))
          obtain ⟨pairs, rfl, rfl⟩ := exists_alike_pairs shapes each
          refine ⟨?_, .inl rfl⟩
          rw [lower_node, lower_node, List.map_map, List.map_map]
          exact View.lower_agrees congruence own (fun pair => pair.2) pairs

/-- Where links do not matter for the nodes that name an address, they do not matter for a tree. -/
theorem lower_eq_of_nodes {node : Node}
    {onReference : Option Handle → Address → Compiling Predicate}
    {byName : Address → Compiling Predicate}
    (same : ∀ inner ∈ node.nodes, ∀ address, inner.operator.target? = some address →
      onReference inner.link address = byName address) :
    lower onReference node = lower (fun _ => byName) node := by
  induction node using Tree.induction with
  | node mark operator operands ih =>
      rw [nodes_node] at same
      have own : ∀ address, operator.target? = some address →
          Agrees Eq False (onReference mark.link address) (byName address) :=
        fun address target => same _ (.head _) address target ▸ .refl
      have each : ∀ operand : { operand // operand ∈ operands },
          Alike Eq False (operand.1, lower onReference operand.1)
            (operand.1, lower (fun _ => byName) operand.1) := by
        rintro ⟨operand, member⟩
        refine ⟨(?_ : lower onReference operand = _) ▸ .refl, .inl rfl⟩
        exact ih operand member fun inner inside =>
          same inner (.tail _ (List.mem_flatMap.2 ⟨operand, member, inside⟩))
      have agrees := View.lower_agrees Predicate.congruence_eq own each operands.attach
      rw [lower_node, lower_node]
      refine Agrees.eq ?_
      convert agrees using 3 <;> simp

/-- Where links do not matter for its references, they do not matter for a valid tree. -/
theorem lower_eq_of_references {node : Node}
    {onReference : Option Handle → Address → Compiling Predicate}
    {byName : Address → Compiling Predicate} (valid : node.validate = .ok ())
    (same : ∀ reference ∈ node.references, onReference reference.2 reference.1 = byName reference.1) :
    lower onReference node = lower (fun _ => byName) node :=
  lower_eq_of_nodes fun inner member address target =>
    same (address, inner.link) (mem_references_of_mem_nodes (bareReferences_of_validate valid) member
      (Operator.kind_of_target? target) target)

/-- Trees of one shape are lowered alike if their references are. -/
theorem alike_of_shape_eq (congruence : Predicate.Congruence related) {node node' : Node}
    (valid : node.validate = .ok ()) (same : node'.shape = node.shape)
    (references : ∀ address ∈ node.addresses,
      Agrees related lenient (onReference address) (onReference' address)) :
    Alike related lenient (node, lower (fun _ => onReference) node)
      (node', lower (fun _ => onReference') node') := by
  refine alike_of_substitute congruence valid (same.trans (substitute_none node).symm) ?_ ?_ ?_ ?_
  · intro operator shape replaces
    cases replaces
  · intro operator member shape replaces
    cases replaces
  · intro operator member _ address target
    exact references address ((mem_addresses node).2 ⟨operator, member, target⟩)
  · intro operator member shape address replaces
    cases replaces

/-- Trees of one shape are lowered alike, whether they keep the rules of their kinds or not. -/
theorem lower_of_shape_eq {node node' : Node} (same : node'.shape = node.shape)
    (byName : Address → Compiling Predicate) :
    lower (fun _ => byName) node' = lower (fun _ => byName) node := by
  suffices alike : Alike Eq False (node, lower (fun _ => byName) node)
      (node', lower (fun _ => byName) node') from alike.agrees.eq.symm
  induction node using Tree.induction generalizing node' with
  | node mark operator operands ih =>
      obtain ⟨mark', operator', operands'⟩ := node'
      rw [shape_node, shape_node, Tree.node.injEq] at same
      obtain ⟨-, rfl, shapes⟩ := same
      obtain ⟨pairs, rfl, rfl⟩ := exists_alike_pairs shapes fun operand member operand' => ih operand member
      refine ⟨?_, .inl rfl⟩
      rw [lower_node, lower_node, List.map_map, List.map_map]
      exact View.lower_agrees Predicate.congruence_eq (fun _ _ => .refl) (fun pair => pair.2) pairs

end Tree

end Medley
