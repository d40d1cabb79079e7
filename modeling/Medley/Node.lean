import Medley.Tree.Build

/-!
# Nodes

A node is a tree whose nodes have an identity and, where they refer to a stored collection, may be
linked to it.  Copies of a node share its identities; numbering a tree gives every node of it an
identity of its own.
-/

namespace Medley

/-- Where a stored collection lives. -/
structure Handle where
  index : Nat
  deriving DecidableEq, Repr

/-- What a node carries besides its operator. -/
structure Mark where
  identity : Nat
  link : Option Handle := none
  deriving DecidableEq, Repr

/-- A tree of nodes with identities and links. -/
abbrev Node := Tree Mark

/-- Computations that hand out identities: the state is the first number not yet in use. -/
abbrev Fresh := StateM Nat

/-- A mark with an identity that nothing else has. -/
def fresh : Fresh Mark := fun next => (⟨next, none⟩, next + 1)

/-- The address that a reference names: `none` for other operators, for the whole library and for
references that are not complete. -/
def Operator.target? (operator : Operator) : Option Address :=
  if operator.kind = .reference then do
    let name ← operator.attributes.get? Key.reference
    if name = allMedia then none
    let space ← operator.attributes.get? Key.space
    return ⟨← Namespace.ofName? space, name⟩
  else none

namespace Tree

variable {α : Type}

/-- What the tree says, on nodes with identities of their own and without links. -/
def number : Tree α → Fresh Node :=
  fold fun _ operator operands => do
    let mark ← fresh
    return .node mark operator (← operands.mapM Prod.snd)

/-- The identity of the root. -/
def identity (node : Node) : Nat := node.mark.identity

/-- The link of the root. -/
def link (node : Node) : Option Handle := node.mark.link

/-- The addresses that a tree refers to, each with the link of its reference, in the order of the
tree.  References do not own operands, so nothing below a reference counts. -/
def references : Node → List (Address × Option Handle) :=
  fold fun mark operator operands =>
    if operator.kind = .reference then
      (operator.target?.map fun address => (address, mark.link)).toList
    else operands.flatMap Prod.snd

/-- The tree with the link of every node replaced. -/
def relink (image : Mark → Operator → Option Handle) : Node → Node :=
  mapNodes fun mark operator => ({ mark with link := image mark operator }, operator)

/-- The tree without links. -/
def unbound : Node → Node := relink fun _ _ => none

/-- The tree with every reference linked to the handle that its address is stored under. -/
def bound (lookup : Address → Option Handle) : Node → Node :=
  relink fun mark operator =>
    if operator.kind = .reference then operator.target?.bind lookup else mark.link

/-- The tree in the order of several entries; the first entry ends outermost.  The nodes around the
tree get identities counting up from a given number. -/
def orderedFrom (next : Nat) : List String → Node → Node
  | [], tree => tree
  | entry :: rest, tree => ordered ⟨next, none⟩ entry (orderedFrom (next + 1) rest tree)

/-- The tree in the order of several entries, on fresh nodes. -/
def orderedBy (entries : List String) (tree : Node) : Fresh Node := fun next =>
  (orderedFrom next entries tree, next + entries.length)

/-- The tree cut to a range, on a fresh node. -/
def limitedBy (start length : UInt64) (tree : Node) : Fresh Node := fun next =>
  (limited ⟨next, none⟩ start length tree, next + 1)

/-- The tree with its operator replaced at the root. -/
def withOperator (tree : Tree α) (operator : Operator) : Tree α :=
  .node tree.mark operator tree.operands

/-- The node with an operand added behind the others, unless one with its identity is there. -/
def addOperand (node operand : Node) : Except Error Node :=
  if node.operands.any fun other => other.identity == operand.identity then
    fail .duplicateOperand
  else .ok (.node node.mark node.operator (node.operands ++ [operand]))

/-- The first operand with an identity, and the node without it. -/
def removeOperand? (node : Node) (identity : Nat) : Option (Node × Node) :=
  (node.operands.find? fun operand => operand.identity == identity).map fun operand =>
    (operand, .node node.mark node.operator
      (node.operands.eraseP fun other => other.identity == identity))

end Tree

end Medley
