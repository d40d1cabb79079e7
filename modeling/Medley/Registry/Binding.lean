import Medley.Registry.State

/-!
# Binding references

A bound reference carries the handle of the collection that it names.  Links follow from names:
binding recomputes them all.  When a collection is renamed the references to it are renamed, and
when a name is removed each reference to it becomes a copy of what it stood for.
-/

namespace Medley.State

/-- Link every reference to what its address points to. -/
def bindAll (state : State) : State := state.mapRoots (Tree.bound state.lookup)

/-- Take all links away. -/
def unbindAll (state : State) : State := state.mapRoots Tree.unbound

/-- Make every link to one handle a link to another. -/
def rebind (state : State) (old new : Handle) : State :=
  state.mapRoots <| Tree.relink fun mark _ => if mark.link = some old then some new else mark.link

/-- The tree with every reference to one address renamed within its namespace. -/
def renameIn (address : Address) (name : String) : Node → Node :=
  Tree.mapNodes fun mark operator =>
    (mark, if operator.target? = some address then operator.setAttribute Key.reference name
      else operator)

/-- Rename every reference to one address within its namespace. -/
def renameReferences (state : State) (address : Address) (name : String) : State :=
  state.mapRoots (renameIn address name)

/-- A copy of a collection in place of a reference to an address, and none in place of other trees. -/
def copyFor (address : Address) (target tree : Node) : Fresh (Option Node) :=
  if tree.operator.target? = some address then some <$> target.number else pure none

/-- The tree with every reference to an address below its root replaced by a copy of a collection.  At
a node the operands that are such references are replaced first, then what is below the others.  The
copies are left as they are, also where the collection refers to the address itself. -/
def inlineBelow (address : Address) (target : Node) : Node → Fresh Node :=
  Tree.fold fun mark operator operands => do
    let copies ← operands.mapM fun operand => copyFor address target operand.1
    let operands ← (operands.zip copies).mapM fun (operand, copy) => copy.elim operand.2 pure
    return .node mark operator operands

/-- The tree with every reference to an address replaced by a copy of a collection. -/
def inlineIn (address : Address) (target root : Node) : Fresh Node := do
  (← copyFor address target root).elim (inlineBelow address target root) pure

/-- Replace every reference to an address by a copy of a collection. -/
def inlineReferences (state : State) (address : Address) (target : Node) : Fresh State := do
  let slots ← state.slots.mapM fun slot =>
    match slot with
    | some root => return some (← inlineIn address target root)
    | none => return none
  return { state with slots }

end Medley.State
