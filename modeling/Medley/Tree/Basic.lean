import Medley.Kind
import Medley.SortedMap

/-!
# Collection trees

A collection is a tree of operators.  Every node carries a kind, text attributes and a list of
media ids, and owns its operands.  The type takes a parameter for what else a node carries: a
`Shape` is a tree that carries nothing else, so two collections say the same thing exactly when
their shapes are equal.

Recursion over trees goes through `Tree.fold`, which offers each operand together with its result,
and proofs go through `Tree.induction`.
-/

namespace Medley

/-- The text attributes of an operator. -/
abbrev Attributes := SortedMap String String

/-- What a node says, apart from its operands. -/
structure Operator where
  kind : Kind
  attributes : Attributes := ∅
  ids : List Int64 := []
  deriving DecidableEq

/-- A tree of operators whose nodes carry marks. -/
inductive Tree (α : Type) where
  | node (mark : α) (operator : Operator) (operands : List (Tree α))

/-- A tree without marks: what a collection says. -/
abbrev Shape := Tree Unit

namespace Tree

variable {α β : Type}

/-- Induction over a tree and all trees inside it. -/
theorem induction {motive : Tree α → Prop}
    (node : ∀ mark operator operands, (∀ operand ∈ operands, motive operand) →
      motive (.node mark operator operands)) (tree : Tree α) : motive tree :=
  @Tree.rec α motive (fun operands => ∀ operand ∈ operands, motive operand)
    (fun mark operator operands ih => node mark operator operands ih)
    (fun _ member => nomatch member)
    (fun _ _ headHolds restHold operand member => by
      rcases List.mem_cons.1 member with here | there
      · exact here ▸ headHolds
      · exact restHold operand there)
    tree

mutual

/-- Compute a value from the root down: the step sees the node and every operand with its value. -/
def fold (step : α → Operator → List (Tree α × β) → β) : Tree α → β
  | .node mark operator operands => step mark operator (foldEach step operands)

/-- Every tree of a list with its value. -/
def foldEach (step : α → Operator → List (Tree α × β) → β) : List (Tree α) → List (Tree α × β)
  | [] => []
  | operand :: rest => (operand, fold step operand) :: foldEach step rest

end

theorem foldEach_eq_map (step : α → Operator → List (Tree α × β) → β) (operands : List (Tree α)) :
    foldEach step operands = operands.map fun operand => (operand, fold step operand) := by
  induction operands with
  | nil => rfl
  | cons operand rest ih => simp [foldEach, ih]

@[simp] theorem fold_node (step : α → Operator → List (Tree α × β) → β) (mark : α)
    (operator : Operator) (operands : List (Tree α)) :
    fold step (.node mark operator operands) =
      step mark operator (operands.map fun operand => (operand, fold step operand)) := by
  rw [fold, foldEach_eq_map]

/-- The mark of the root. -/
def mark : Tree α → α
  | .node mark _ _ => mark

/-- The operator at the root. -/
def operator : Tree α → Operator
  | .node _ operator _ => operator

/-- The operands of the root. -/
def operands : Tree α → List (Tree α)
  | .node _ _ operands => operands

/-- The kind of the root. -/
def kind (tree : Tree α) : Kind := tree.operator.kind

/-- The attributes of the root. -/
def attributes (tree : Tree α) : Attributes := tree.operator.attributes

/-- The media ids of the root. -/
def ids (tree : Tree α) : List Int64 := tree.operator.ids

/-- The value of an attribute of the root. -/
def attribute? (tree : Tree α) (key : String) : Option String := tree.attributes.get? key

@[simp] theorem mark_node (mark : α) (operator : Operator) (operands : List (Tree α)) :
    (Tree.node mark operator operands).mark = mark := rfl

@[simp] theorem operator_node (mark : α) (operator : Operator) (operands : List (Tree α)) :
    (Tree.node mark operator operands).operator = operator := rfl

@[simp] theorem operands_node (mark : α) (operator : Operator) (operands : List (Tree α)) :
    (Tree.node mark operator operands).operands = operands := rfl

/-- The nodes of a tree, parents before their operands. -/
def nodes : Tree α → List (Tree α) :=
  fold fun mark operator operands =>
    .node mark operator (operands.map Prod.fst) :: operands.flatMap Prod.snd

theorem nodes_node (mark : α) (operator : Operator) (operands : List (Tree α)) :
    (Tree.node mark operator operands).nodes =
      .node mark operator operands :: operands.flatMap nodes := by
  simp only [nodes, fold_node, List.map_map, List.flatMap_map]
  congr 2
  exact List.map_id operands

/-- The tree with every node replaced by what a function makes of its mark and operator. -/
def mapNodes (image : α → Operator → β × Operator) : Tree α → Tree β :=
  fold fun mark operator operands =>
    .node (image mark operator).1 (image mark operator).2 (operands.map Prod.snd)

theorem mapNodes_node (image : α → Operator → β × Operator) (mark : α) (operator : Operator)
    (operands : List (Tree α)) :
    mapNodes image (.node mark operator operands) =
      .node (image mark operator).1 (image mark operator).2 (operands.map (mapNodes image)) := by
  simp only [mapNodes, fold_node, List.map_map]
  rfl

/-- What the tree says, without its marks. -/
def shape : Tree α → Shape := mapNodes fun _ operator => ((), operator)

theorem shape_node (mark : α) (operator : Operator) (operands : List (Tree α)) :
    (Tree.node mark operator operands).shape = .node () operator (operands.map shape) :=
  mapNodes_node ..

@[simp] theorem operator_shape (tree : Tree α) : tree.shape.operator = tree.operator := by
  cases tree
  simp [shape_node]

@[simp] theorem shape_shape (tree : Shape) : tree.shape = tree := by
  induction tree using Tree.induction with
  | node mark operator operands ih =>
      rw [shape_node, List.map_congr_left ih, List.map_id']

section Equality

variable [DecidableEq α]

mutual

/-- Whether two trees are equal. -/
def same : Tree α → Tree α → Bool
  | .node mark operator operands, .node mark' operator' operands' =>
      decide (mark = mark') && decide (operator = operator') && sameEach operands operands'

/-- Whether two lists of trees are equal. -/
def sameEach : List (Tree α) → List (Tree α) → Bool
  | [], [] => true
  | operand :: rest, operand' :: rest' => same operand operand' && sameEach rest rest'
  | [], _ :: _ => false
  | _ :: _, [] => false

end

theorem same_eq_true {left right : Tree α} : same left right = true ↔ left = right := by
  induction left using Tree.induction generalizing right with
  | node mark operator operands ih =>
      obtain ⟨mark', operator', operands'⟩ := right
      have each : ∀ {lefts rights : List (Tree α)},
          (∀ operand ∈ lefts, ∀ {right : Tree α}, same operand right = true ↔ operand = right) →
          (sameEach lefts rights = true ↔ lefts = rights) := by
        intro lefts
        induction lefts with
        | nil => intro rights _; cases rights <;> simp [sameEach]
        | cons operand rest restIh =>
            intro rights holds
            cases rights with
            | nil => simp [sameEach]
            | cons operand' rest' =>
                simp only [sameEach, Bool.and_eq_true, List.cons.injEq]
                rw [holds operand (.head _), restIh fun other member =>
                  holds other (.tail _ member)]
      simp [same, each ih, and_assoc]

instance : DecidableEq (Tree α) := fun left right =>
  decidable_of_iff (same left right = true) same_eq_true

end Equality

/-- Whether two trees say the same thing, whatever their marks are. -/
def sameShape (left : Tree α) (right : Tree β) : Bool := decide (left.shape = right.shape)

@[simp] theorem sameShape_eq_true {left : Tree α} {right : Tree β} :
    sameShape left right = true ↔ left.shape = right.shape := by
  simp [sameShape]

end Tree

end Medley
