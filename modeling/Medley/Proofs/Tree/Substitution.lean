import Mathlib.Data.List.Basic
import Medley.Proofs.Tree.Validity
import Medley.Registry.Binding

/-!
# References of a tree and their substitution

What a tree refers to depends on its shape alone.  Renaming a collection and inlining a removed one
both replace reference operators by shapes, all at once and without looking into what they put in;
`Tree.substitute` is that replacement, and the addresses of the result are read off the addresses
before.
-/

namespace Medley

namespace Tree

variable {α : Type}

/-- The reference operators of a tree.  What stands below a reference is not part of the collection
and is left out. -/
def referring : Tree α → List Operator :=
  fold fun _ operator operands =>
    if operator.kind = .reference then [operator] else operands.flatMap Prod.snd

/-- The addresses that a tree refers to. -/
def addresses (tree : Tree α) : List Address := tree.referring.filterMap Operator.target?

/-- The shape of a tree with operators replaced, each together with its operands. -/
def substitute (image : Operator → Option Shape) : Tree α → Shape :=
  fold fun _ operator operands =>
    (image operator).getD (.node () operator (operands.map Prod.snd))

theorem referring_node (mark : α) (operator : Operator) (operands : List (Tree α)) :
    referring (.node mark operator operands) =
      if operator.kind = .reference then [operator] else operands.flatMap referring := by
  simp only [referring, fold_node, List.flatMap_map]

theorem substitute_node (image : Operator → Option Shape) (mark : α) (operator : Operator)
    (operands : List (Tree α)) :
    substitute image (.node mark operator operands) =
      (image operator).getD (.node () operator (operands.map (substitute image))) := by
  simp only [substitute, fold_node, List.map_map]
  rfl

@[simp] theorem referring_shape (tree : Tree α) : tree.shape.referring = tree.referring := by
  induction tree using Tree.induction with
  | node mark operator operands ih =>
      rw [shape_node, referring_node, referring_node, List.flatMap_map, List.flatMap_congr ih]

@[simp] theorem addresses_shape (tree : Tree α) : tree.shape.addresses = tree.addresses := by
  simp only [addresses, referring_shape]

theorem mem_addresses (tree : Tree α) {address : Address} :
    address ∈ tree.addresses ↔ ∃ operator ∈ tree.referring, operator.target? = some address :=
  List.mem_filterMap

theorem mem_addresses_node {mark : α} {operator : Operator} {operands : List (Tree α)}
    {address : Address} :
    address ∈ addresses (.node mark operator operands) ↔
      operator.target? = some address ∨
        operator.kind ≠ .reference ∧ ∃ operand ∈ operands, address ∈ operand.addresses := by
  rw [addresses, referring_node]
  by_cases reference : operator.kind = .reference
  · simp [reference]
  · simp [reference, Operator.target?_of_kind_ne reference, addresses]
    grind

@[simp] theorem substitute_shape (image : Operator → Option Shape) (tree : Tree α) :
    tree.shape.substitute image = tree.substitute image := by
  induction tree using Tree.induction with
  | node mark operator operands ih =>
      rw [shape_node, substitute_node, substitute_node, List.map_map]
      exact congrArg _ (congrArg _ (List.map_congr_left ih))

theorem substitute_of_shape_eq {β : Type} {left : Tree α} {right : Tree β}
    (same : left.shape = right.shape) (image : Operator → Option Shape) :
    left.substitute image = right.substitute image := by
  rw [← substitute_shape image left, same, substitute_shape]

theorem validate_shape (tree : Tree α) : tree.shape.validate = .ok () ↔ tree.validate = .ok () := by
  induction tree using Tree.induction with
  | node mark operator operands ih =>
      rw [shape_node, validate_node, validate_node, Operator.view_map]
      simp only [List.forall_mem_map, Except.map_eq_ok]
      refine and_congr ⟨?_, ?_⟩ (forall₂_congr ih)
      · rintro ⟨_, ⟨view, reads, rfl⟩, refers⟩
        exact ⟨view, reads, (View.refers_map ..).1 refers⟩
      · rintro ⟨view, reads, refers⟩
        exact ⟨_, ⟨view, reads, rfl⟩, (View.refers_map ..).2 refers⟩

theorem validate_of_shape_eq {β : Type} {left : Tree α} {right : Tree β}
    (same : left.shape = right.shape) (valid : left.validate = .ok ()) :
    right.validate = .ok () := by
  rwa [← validate_shape, ← same, validate_shape]

/-- What a valid tree becomes is valid if everything put into it is. -/
theorem validate_substitute {image : Operator → Option Shape} {tree : Tree α}
    (valid : tree.validate = .ok ())
    (imageValid : ∀ operator shape, image operator = some shape → shape.validate = .ok ()) :
    (tree.substitute image).validate = .ok () := by
  induction tree using Tree.induction with
  | node mark operator operands ih =>
      rw [substitute_node]
      cases replaced : image operator with
      | some shape => exact imageValid operator shape replaced
      | none =>
          rw [validate_node] at valid
          obtain ⟨⟨view, reads, refers⟩, below⟩ := valid
          rw [Option.getD_none, validate_node, Operator.view_map, reads]
          refine ⟨⟨_, rfl, (View.refers_map ..).2 refers⟩, ?_⟩
          rw [List.forall_mem_map]
          exact fun operand member => ih operand member (below operand member)

theorem nodes_mapNodes {β : Type} (image : α → Operator → β × Operator) (tree : Tree α) :
    (mapNodes image tree).nodes = tree.nodes.map (mapNodes image) := by
  induction tree using Tree.induction with
  | node mark operator operands ih =>
      rw [mapNodes_node, nodes_node, nodes_node, List.map_cons, mapNodes_node, List.flatMap_map,
        List.map_flatMap, List.flatMap_congr ih]

section References

theorem fst_references (node : Node) : node.references.map Prod.fst = node.addresses := by
  induction node using Tree.induction with
  | node mark operator operands ih =>
      rw [references_node, addresses, referring_node]
      by_cases reference : operator.kind = .reference
      · cases target : operator.target? <;> simp [reference, target]
      · rw [if_neg reference, if_neg reference, List.map_flatMap, List.filterMap_flatMap]
        exact List.flatMap_congr ih

/-- Relinking by the old links alone changes the link of every reference in the same way. -/
theorem references_relink (image : Option Handle → Option Handle) (node : Node) :
    (node.relink fun mark _ => image mark.link).references =
      node.references.map fun reference => (reference.1, image reference.2) := by
  induction node using Tree.induction with
  | node mark operator operands ih =>
      rw [relink, mapNodes_node, references_node, references_node]
      by_cases reference : operator.kind = .reference
      · cases operator.target? <;> simp [reference]
      · rw [if_neg reference, if_neg reference, List.map_flatMap, List.flatMap_map]
        exact List.flatMap_congr ih

theorem references_unbound (node : Node) :
    node.unbound.references = node.addresses.map fun address => (address, none) := by
  rw [unbound, references_relink fun _ => none, ← fst_references, List.map_map]
  rfl

theorem references_bound (lookup : Address → Option Handle) (node : Node) :
    (node.bound lookup).references =
      node.addresses.map fun address => (address, lookup address) := by
  rw [← fst_references, List.map_map]
  induction node using Tree.induction with
  | node mark operator operands ih =>
      rw [bound, relink, mapNodes_node, references_node, references_node]
      by_cases reference : operator.kind = .reference
      · cases operator.target? <;> simp [reference]
      · rw [if_neg reference, if_neg reference, List.map_flatMap, List.flatMap_map]
        exact List.flatMap_congr ih

@[simp] theorem shape_relink (image : Mark → Operator → Option Handle) (node : Node) :
    (node.relink image).shape = node.shape := by
  induction node using Tree.induction with
  | node mark operator operands ih =>
      rw [relink, mapNodes_node, shape_node, shape_node, List.map_map, ← List.map_congr_left ih]
      rfl

@[simp] theorem shape_bound (lookup : Address → Option Handle) (node : Node) :
    (node.bound lookup).shape = node.shape := shape_relink _ node

@[simp] theorem shape_unbound (node : Node) : node.unbound.shape = node.shape := shape_relink _ node

@[simp] theorem addresses_unbound (node : Node) : node.unbound.addresses = node.addresses := by
  rw [← addresses_shape, shape_unbound, addresses_shape]

/-- Whether every link in a tree is the handle that its address is stored under. -/
def Linked (lookup : Address → Option Handle) (node : Node) : Prop :=
  ∀ reference ∈ node.references, ∀ handle, reference.2 = some handle →
    lookup reference.1 = some handle

theorem linked_bound (lookup : Address → Option Handle) (node : Node) :
    (node.bound lookup).Linked lookup := by
  intro reference member handle link
  rw [references_bound] at member
  obtain ⟨address, -, rfl⟩ := List.mem_map.1 member
  exact link

theorem linked_unbound (lookup : Address → Option Handle) (node : Node) :
    node.unbound.Linked lookup := by
  intro reference member handle link
  rw [references_unbound] at member
  obtain ⟨address, -, rfl⟩ := List.mem_map.1 member
  cases link

/-- Links to a handle move to another one with the names that lead there. -/
theorem Linked.relink {lookup moved : Address → Option Handle} {old new : Handle} {node : Node}
    (linked : node.Linked lookup)
    (moves : ∀ address, moved address =
      if lookup address = some old then some new else lookup address) :
    (node.relink fun mark _ => if mark.link = some old then some new else mark.link).Linked moved := by
  intro reference member target link
  rw [references_relink fun link => if link = some old then some new else link] at member
  obtain ⟨⟨name, bound⟩, inside, rfl⟩ := List.mem_map.1 member
  have leads := linked _ inside
  rw [moves]
  simp only at link leads ⊢
  split at link
  · next same => rw [if_pos (leads old same), link]
  · next other => rw [if_neg fun same => other (by rw [link, ← same, leads _ link]), leads _ link]

end References

section Images

variable {image : Operator → Option Shape}

/-- Substitution in references alone: every address of the result comes from a reference that stays
or from a shape put in place of one. -/
theorem mem_addresses_substitute
    (onReferences : ∀ operator, operator.kind ≠ .reference → image operator = none)
    {tree : Tree α} {address : Address} :
    address ∈ (tree.substitute image).addresses ↔
      ∃ operator ∈ tree.referring,
        match image operator with
        | some shape => address ∈ shape.addresses
        | none => operator.target? = some address := by
  induction tree using Tree.induction with
  | node mark operator operands ih =>
      rw [substitute_node, referring_node]
      by_cases reference : operator.kind = .reference
      · cases replaced : image operator with
        | none => simp [reference, replaced, mem_addresses_node]
        | some shape => simp [reference, replaced]
      · rw [if_neg reference, onReferences operator reference, Option.getD_none,
          mem_addresses_node, Operator.target?_of_kind_ne reference]
        simp only [reduceCtorEq, false_or, reference, ne_eq, not_false_eq_true, true_and,
          List.mem_map, List.mem_flatMap]
        constructor
        · rintro ⟨_, ⟨operand, member, rfl⟩, inside⟩
          obtain ⟨found, here, gives⟩ := (ih operand member).1 inside
          exact ⟨found, ⟨operand, member, here⟩, gives⟩
        · rintro ⟨found, ⟨operand, member, here⟩, gives⟩
          exact ⟨_, ⟨operand, member, rfl⟩, (ih operand member).2 ⟨found, here, gives⟩⟩

/-- A valid tree without references that are replaced stays as it is. -/
theorem substitute_eq_shape
    (onReferences : ∀ operator, operator.kind ≠ .reference → image operator = none) {tree : Tree α}
    (valid : tree.validate = .ok ()) (stays : ∀ operator ∈ tree.referring, image operator = none) :
    tree.substitute image = tree.shape := by
  induction tree using Tree.induction with
  | node mark operator operands ih =>
      obtain ⟨⟨view, reads, -⟩, below⟩ := (validate_node ..).1 valid
      rw [referring_node] at stays
      rw [substitute_node, shape_node]
      by_cases reference : operator.kind = .reference
      · obtain rfl := Operator.operands_eq_nil_of_reference reads reference
        rw [if_pos reference] at stays
        rw [stays operator (List.mem_singleton_self _)]
        rfl
      · rw [if_neg reference] at stays
        rw [onReferences operator reference, Option.getD_none]
        congr 1
        exact List.map_congr_left fun operand member => ih operand member (below operand member)
          fun reference inside => stays reference (List.mem_flatMap.2 ⟨operand, member, inside⟩)

theorem substitute_none (tree : Tree α) : tree.substitute (fun _ => none) = tree.shape := by
  induction tree using Tree.induction with
  | node mark operator operands ih =>
      rw [substitute_node, shape_node, Option.getD_none, List.map_congr_left ih]

end Images

end Tree

namespace Operator

/-- What inlining a collection puts in place of an operator. -/
def inlined (address : Address) (target : Shape) (operator : Operator) : Option Shape :=
  if operator.target? = some address then some target else none

/-- What renaming a collection puts in place of an operator. -/
def renamed (address : Address) (name : String) (operator : Operator) : Option Shape :=
  if operator.target? = some address then
    some (.node () (operator.setAttribute Key.reference name) [])
  else none

theorem inlined_of_kind_ne {address : Address} {target : Shape} {operator : Operator}
    (other : operator.kind ≠ .reference) : operator.inlined address target = none := by
  simp [inlined, target?_of_kind_ne other]

theorem renamed_of_kind_ne {address : Address} {name : String} {operator : Operator}
    (other : operator.kind ≠ .reference) : operator.renamed address name = none := by
  simp [renamed, target?_of_kind_ne other]

theorem eq_of_inlined {address : Address} {target shape : Shape} {operator : Operator}
    (replaced : operator.inlined address target = some shape) :
    operator.target? = some address ∧ shape = target := by
  unfold inlined at replaced
  split at replaced
  · next found => exact ⟨found, (Option.some.inj replaced).symm⟩
  · cases replaced

/-- What an operator with a target has. -/
theorem exists_of_target? {operator : Operator} {address : Address}
    (target : operator.target? = some address) :
    operator.kind = .reference ∧ ∃ text, operator.attributes.get? Key.space = some text ∧
      Namespace.ofName? text = some address.space := by
  have reference := kind_of_target? target
  simp only [target?, reference, if_true, Option.bind_eq_bind, Option.bind_eq_some_iff] at target
  obtain ⟨old, -, target⟩ := target
  split at target
  · cases target
  · obtain ⟨text, spaced, target⟩ := Option.bind_eq_some_iff.1 target
    obtain ⟨space, read, same⟩ := Option.bind_eq_some_iff.1 target
    cases same
    exact ⟨reference, text, spaced, read⟩

theorem space_setAttribute_reference (operator : Operator) (name : String) :
    (operator.setAttribute Key.reference name).attributes.get? Key.space =
      operator.attributes.get? Key.space :=
  SortedMap.get?_insert_of_ne _ (by decide) _

/-- What is put in place of a renamed reference. -/
theorem eq_of_renamed {address : Address} {name : String} {operator : Operator} {shape : Shape}
    (replaced : operator.renamed address name = some shape) :
    operator.target? = some address ∧
      shape = .node () (operator.setAttribute Key.reference name) [] := by
  unfold renamed at replaced
  split at replaced
  · next found => exact ⟨found, (Option.some.inj replaced).symm⟩
  · cases replaced

/-- A reference that is renamed to the name of the whole library refers to no collection any more. -/
theorem target?_setAttribute_reference {operator : Operator} {address : Address}
    (target : operator.target? = some address) (name : String) :
    (operator.setAttribute Key.reference name).target? =
      if name = allMedia then none else some { address with name } := by
  obtain ⟨reference, text, spaced, read⟩ := exists_of_target? target
  rw [target?, space_setAttribute_reference, spaced]
  simp only [setAttribute, reference, if_true, SortedMap.get?_insert_self, read,
    Option.bind_eq_bind, Option.bind_some]
  rfl

/-- A reference keeps the rules of its kind under another name. -/
theorem validate_renamed {address : Address} {name : String} {operator : Operator} {shape : Shape}
    (replaced : operator.renamed address name = some shape) : shape.validate = .ok () := by
  obtain ⟨found, rfl⟩ := eq_of_renamed replaced
  obtain ⟨reference, text, spaced, read⟩ := exists_of_target? found
  have space := (space_setAttribute_reference operator name).trans spaced
  have kept : (operator.setAttribute Key.reference name).kind = .reference := reference
  refine (Tree.validate_node ..).2 ⟨⟨_, (view_reference_eq_ok kept).2
    ⟨name, SortedMap.get?_insert_self .., .inr (by rw [space]; rfl), rfl⟩, fun _ => ?_⟩, ?_⟩
  · rw [space, Option.getD_some]
    exact ⟨address.space, by rw [Namespace.read, read], trivial⟩
  · intro operand member
    cases member

end Operator

/-- What is seen of the results of handing out identities, if it does not depend on them. -/
theorem Fresh.map_mapM {α β γ : Type} (action : α → Fresh β) (view : β → γ) (image : α → γ)
    (items : List α) (agrees : ∀ item ∈ items, ∀ next, view (action item next).1 = image item)
    (next : Nat) : ((items.mapM action) next).1.map view = items.map image := by
  induction items generalizing next with
  | nil => rfl
  | cons item rest ih =>
      rw [List.mapM_cons]
      exact congrArg₂ List.cons (agrees item (.head _) next)
        (ih (fun other member => agrees other (.tail _ member)) _)

theorem Fresh.length_mapM {α β : Type} (action : α → Fresh β) (items : List α) (next : Nat) :
    ((items.mapM action) next).1.length = items.length := by
  have units := Fresh.map_mapM action (fun _ => ()) (fun _ => ()) items (fun _ _ _ => rfl) next
  simpa using congrArg List.length units

namespace Tree

variable {α : Type}

theorem number_node (mark : α) (operator : Operator) (operands : List (Tree α)) (next : Nat) :
    (number (.node mark operator operands) next).1 =
      .node ⟨next, none⟩ operator ((operands.mapM number) (next + 1)).1 := by
  simp only [number, fold_node, List.mapM_map]
  rfl

/-- Numbering a tree changes its marks alone. -/
@[simp] theorem shape_number (tree : Tree α) (next : Nat) :
    (tree.number next).1.shape = tree.shape := by
  induction tree using Tree.induction generalizing next with
  | node mark operator operands ih =>
      rw [number_node, shape_node, shape_node]
      exact congrArg (Tree.node () operator)
        (Fresh.map_mapM number shape shape operands ih _)

theorem shape_renameIn (address : Address) (name : String) {tree : Node}
    (valid : tree.validate = .ok ()) :
    (State.renameIn address name tree).shape = tree.substitute (·.renamed address name) := by
  induction tree using Tree.induction with
  | node mark operator operands ih =>
      rw [validate_node] at valid
      obtain ⟨⟨view, reads, -⟩, below⟩ := valid
      rw [State.renameIn, mapNodes_node, shape_node, substitute_node, Operator.renamed]
      by_cases found : operator.target? = some address
      · obtain rfl := Operator.operands_eq_nil_of_reference reads (Operator.kind_of_target? found)
        rw [if_pos found, if_pos found]
        rfl
      · rw [if_neg found, if_neg found, List.map_map, Option.getD_none]
        exact congrArg (Tree.node () operator)
          (List.map_congr_left fun operand member => ih operand member (below operand member))

theorem substitute_inlined_of_not_mem {address : Address} {target : Shape} {tree : Tree α}
    (valid : tree.validate = .ok ()) (absent : address ∉ tree.addresses) :
    tree.substitute (·.inlined address target) = tree.shape :=
  substitute_eq_shape (fun _ => Operator.inlined_of_kind_ne) valid fun operator member =>
    if_neg fun found => absent ((mem_addresses tree).2 ⟨operator, member, found⟩)

theorem mem_addresses_inlined {address : Address} {target : Shape} {tree : Tree α}
    {other : Address} :
    other ∈ (tree.substitute (·.inlined address target)).addresses ↔
      (other ∈ tree.addresses ∧ other ≠ address) ∨
        (address ∈ tree.addresses ∧ other ∈ target.addresses) := by
  rw [mem_addresses_substitute fun _ => Operator.inlined_of_kind_ne]
  simp only [mem_addresses tree, Operator.inlined]
  constructor
  · rintro ⟨operator, member, gives⟩
    by_cases found : operator.target? = some address
    · rw [if_pos found] at gives
      exact .inr ⟨⟨operator, member, found⟩, gives⟩
    · rw [if_neg found] at gives
      exact .inl ⟨⟨operator, member, gives⟩, fun same => found (same ▸ gives)⟩
  · rintro (⟨⟨operator, member, gives⟩, different⟩ | ⟨⟨operator, member, found⟩, inside⟩)
    · refine ⟨operator, member, ?_⟩
      rw [if_neg (by rw [gives]; exact fun same => different (Option.some.inj same))]
      exact gives
    · refine ⟨operator, member, ?_⟩
      rw [if_pos found]
      exact inside

theorem mem_addresses_renamed {address : Address} {name : String} {tree : Tree α}
    {other : Address} :
    other ∈ (tree.substitute (·.renamed address name)).addresses ↔
      (other ∈ tree.addresses ∧ other ≠ address) ∨
        (address ∈ tree.addresses ∧ name ≠ allMedia ∧ other = { address with name }) := by
  rw [mem_addresses_substitute fun _ => Operator.renamed_of_kind_ne]
  simp only [mem_addresses tree, Operator.renamed]
  constructor
  · rintro ⟨operator, member, gives⟩
    by_cases found : operator.target? = some address
    · rw [if_pos found] at gives
      simp only [mem_addresses_node, Operator.target?_setAttribute_reference found] at gives
      refine .inr ⟨⟨operator, member, found⟩, ?_⟩
      simpa [eq_comm] using gives
    · rw [if_neg found] at gives
      exact .inl ⟨⟨operator, member, gives⟩, fun same => found (same ▸ gives)⟩
  · rintro (⟨⟨operator, member, gives⟩, different⟩ | ⟨⟨operator, member, found⟩, kept, rfl⟩)
    · refine ⟨operator, member, ?_⟩
      rw [if_neg (by rw [gives]; exact fun same => different (Option.some.inj same))]
      exact gives
    · refine ⟨operator, member, ?_⟩
      rw [if_pos found]
      simp [mem_addresses_node, Operator.target?_setAttribute_reference found, kept]

end Tree

end Medley
