import Medley.Proofs.Meaning.Asking
import Medley.Proofs.Registry.Frames

/-!
# Taking out the references to a removed collection

The references to a collection can be taken out in place: a walk visits a node, puts copies in place of
those operands that are such references, and then visits all operands, also the copies that it has just
put in.  Such a walk need not end (`State.stripBelow_eq_none`).  It does if the collection does not refer to
its own address, within a depth that the numbers of nodes bound, and then it has done to the stored trees
what inlining does: every reference is replaced by a copy on new nodes, wherever it stands, and nothing else
is changed.  So no reference to the address is left, and where no references run in cycles those that there
are still name stored collections (`State.strip_substitutes`).
-/

namespace Medley

/-- Computations that hand out identities and may be given up. -/
abbrev Walk := StateT Nat Option

namespace Walk

variable {α β γ : Type}

/-- A computation that is never given up. -/
def give (action : Fresh α) : Walk α := fun next => some (action next)

/-- Walks that end one by one end one after the other. -/
theorem mapM_eq_give {action : α → Walk γ} {total : β → Fresh γ} {items : List α} {others : List β}
    (each : List.Forall₂ (fun item other => action item = give (total other)) items others) :
    items.mapM action = give (others.mapM total) := by
  induction each with
  | nil => rfl
  | cons here _ ih =>
      rw [List.mapM_cons, List.mapM_cons, here, ih]
      rfl

/-- Walks of which one does not end do not end one after the other. -/
theorem mapM_eq_none {action : α → Walk γ} {item : α} {items : List α} (member : item ∈ items)
    (never : ∀ next, action item next = none) (next : Nat) : items.mapM action next = none := by
  induction items generalizing next with
  | nil => cases member
  | cons first rest ih =>
      rw [List.mapM_cons]
      show (action first next).bind _ = none
      rcases List.mem_cons.1 member with rfl | there
      · rw [never]
        rfl
      · cases action first next with
        | none => rfl
        | some result =>
            show (rest.mapM action result.2).bind _ = none
            rw [ih there]
            rfl

end Walk

namespace Tree

variable {address : Address} {target tree copy : Node}

theorem length_nodes_pos (tree : Node) : 0 < tree.nodes.length := by
  obtain ⟨mark, operator, operands⟩ := tree
  rw [nodes_node]
  exact Nat.zero_lt_succ _

theorem length_nodes_le {trees : List Node} (member : tree ∈ trees) :
    tree.nodes.length ≤ (trees.flatMap nodes).length := by
  rw [List.flatMap_def]
  exact (List.sublist_flatten_of_mem (List.mem_map_of_mem member)).length_le

theorem length_nodes_lt (mark : Mark) (operator : Operator) {operands : List Node}
    (member : tree ∈ operands) : tree.nodes.length < (node mark operator operands).nodes.length := by
  rw [nodes_node, List.length_cons]
  exact Nat.lt_succ_of_le (length_nodes_le member)

/-- The nodes of a tree have the operators of those of any that says the same. -/
theorem exists_mem_nodes_of_shape_eq (same : copy.shape = target.shape) {node : Node}
    (member : node ∈ copy.nodes) : ∃ before ∈ target.nodes, before.operator = node.operator := by
  have shapes : copy.nodes.map Tree.shape = target.nodes.map Tree.shape := by
    rw [Tree.shape, ← nodes_mapNodes, ← nodes_mapNodes]
    exact congrArg nodes same
  have inside : node.shape ∈ target.nodes.map Tree.shape := shapes ▸ List.mem_map_of_mem member
  obtain ⟨before, member, same⟩ := List.mem_map.1 inside
  exact ⟨before, member, by rw [← operator_shape, same, operator_shape]⟩

theorem IsCopy.length_nodes (is : IsCopy copy target) : copy.nodes.length = target.nodes.length := by
  have shapes := congrArg (fun tree => tree.nodes.length) is.shape
  simpa only [Tree.shape, nodes_mapNodes, List.length_map] using shapes

theorem spares_of_shape_eq (same : copy.shape = target.shape) :
    copy.Spares address → target.Spares address := by
  intro spares node member
  obtain ⟨before, inside, operator⟩ := exists_mem_nodes_of_shape_eq same.symm member
  exact operator ▸ spares before inside

theorem IsCopy.spares (is : IsCopy copy target) (spares : target.Spares address) :
    copy.Spares address :=
  spares_of_shape_eq is.shape.symm spares

theorem exists_operand_of_not_spares (differs : tree.operator.target? ≠ some address)
    (refers : ¬ tree.Spares address) : ∃ operand ∈ tree.operands, ¬ operand.Spares address := by
  obtain ⟨mark, operator, operands⟩ := tree
  by_contra none
  refine refers (spares_node.2 ⟨differs, fun operand member => ?_⟩)
  by_contra some
  exact none ⟨operand, member, some⟩

theorem exists_operand_of_shape_eq (same : copy.shape = target.shape)
    (refers : ∃ operand ∈ target.operands, ¬ operand.Spares address) :
    ∃ operand ∈ copy.operands, ¬ operand.Spares address := by
  obtain ⟨operand, member, refers⟩ := refers
  have shapes : copy.operands.map Tree.shape = target.operands.map Tree.shape := by
    obtain ⟨_, _, operands⟩ := copy
    obtain ⟨_, _, operands'⟩ := target
    rw [shape_node, shape_node] at same
    exact (Tree.node.inj same).2.2
  have inside : operand.shape ∈ copy.operands.map Tree.shape := shapes ▸ List.mem_map_of_mem member
  obtain ⟨operand', member', same⟩ := List.mem_map.1 inside
  exact ⟨operand', member', fun spares => refers (spares_of_shape_eq same spares)⟩

/-- What becomes of trees when copies of a collection that does not refer to the address are put in
place of the references to it. -/
theorem Inlines.spares {trees others : List Node} {next later : Nat} (spares : target.Spares address)
    (inlines : Inlines address target trees next others later) :
    ∀ tree ∈ others, tree.Spares address := by
  obtain ⟨copies, filled, are, -⟩ := inlines
  intro tree member node inside
  rcases filled.mem_nodes (List.mem_flatMap.2 ⟨tree, member, inside⟩) with copied | ⟨-, -, -, -, differs⟩
  · obtain ⟨copy, isThere, inCopy⟩ := List.mem_flatMap.1 copied
    exact (are copy isThere).spares spares node inCopy
  · exact differs

end Tree

namespace State

section Walking

variable {address : Address} {target tree : Node} {budget : Nat}

/-- A tree, or a copy of a collection in its place if it is a reference to an address. -/
def copyOver (address : Address) (target tree : Node) : Fresh Node := do
  return (← copyFor address target tree).getD tree

/-- Take the references to an address out below a root: replace the operands that are such references,
then visit all operands.  The walk is given up where it gets deeper than a budget. -/
def stripBelow (address : Address) (target : Node) : Nat → Node → Walk Node
  | 0, _ => fun _ => none
  | budget + 1, tree => do
      let operands ← Walk.give (tree.operands.mapM (copyOver address target))
      return .node tree.mark tree.operator (← operands.mapM (stripBelow address target budget))

/-- Take the references to an address out of a tree.  A root that is one is replaced and not visited. -/
def stripRoot (address : Address) (target : Node) (budget : Nat) (root : Node) : Walk Node :=
  if root.operator.target? = some address then Walk.give target.number
  else stripBelow address target budget root

/-- Take the references to an address out of all stored trees. -/
def strip (state : State) (address : Address) (target : Node) (budget : Nat) : Walk State := do
  let slots ← state.slots.mapM fun slot =>
    match slot with
    | some root => some <$> stripRoot address target budget root
    | none => pure none
  return { state with slots }

/-- One step of the walk, from the operands after the copies are put in place. -/
theorem stripBelow_succ (mark : Mark) (operator : Operator) (operands : List Node) (next : Nat) :
    stripBelow address target (budget + 1) (.node mark operator operands) next =
      (List.mapM (stripBelow address target budget) (operands.mapM (copyOver address target) next).1 >>=
        fun operands => pure (Tree.node mark operator operands))
          (operands.mapM (copyOver address target) next).2 := rfl

theorem copyOver_of_target (names : tree.operator.target? = some address) :
    copyOver address target tree = target.number := by
  rw [copyOver, Tree.copyFor_of_target names]
  rfl

theorem copyOver_of_ne (differs : tree.operator.target? ≠ some address) :
    copyOver address target tree = pure tree := by
  rw [copyOver, Tree.copyFor_of_ne differs]
  rfl

/-- The walk leaves a tree without references to the address as it is. -/
theorem stripBelow_of_spares (spares : tree.Spares address) (enough : tree.nodes.length ≤ budget) :
    stripBelow address target budget tree = Walk.give (pure tree) := by
  induction budget generalizing tree with
  | zero => exact absurd enough (Nat.not_le.2 tree.length_nodes_pos)
  | succ budget ih =>
      obtain ⟨mark, operator, operands⟩ := tree
      obtain ⟨-, below⟩ := Tree.spares_node.1 spares
      have kept : operands.mapM (copyOver address target) = pure operands :=
        List.mapM_eq_pure fun operand member => copyOver_of_ne (below operand member).operator
      have visited : operands.mapM (stripBelow address target budget) = pure operands := by
        refine List.mapM_eq_pure fun operand member => ih (below operand member) ?_
        have smaller := Tree.length_nodes_lt mark operator member
        omega
      funext next
      rw [stripBelow_succ, kept]
      show (List.mapM (stripBelow address target budget) operands >>= _) next = _
      rw [visited]
      rfl

/-- Which copies are taken does not depend on whether they are put in place at once. -/
theorem mapM_copyOver (operands : List Node) (next : Nat) :
    let taken := operands.mapM (copyFor address target) next
    operands.mapM (copyOver address target) next =
      (List.zipWith (fun operand copy => copy.getD operand) operands taken.1, taken.2) := by
  induction operands generalizing next with
  | nil => rfl
  | cons operand rest ih =>
      have first : copyOver address target operand next =
          ((copyFor address target operand next).1.getD operand,
            (copyFor address target operand next).2) := rfl
      have later := ih (copyFor address target operand next).2
      intro taken
      have is : taken = _ := congrFun (List.mapM_cons (f := copyFor address target)) next
      rw [is, List.mapM_cons]
      show (_ :: (rest.mapM (copyOver address target) (copyOver address target operand next).2).1,
        (rest.mapM (copyOver address target) (copyOver address target operand next).2).2) = _
      rw [first, later]
      rfl

/-- A copy that is visited stays as it is, and what is no reference is visited instead of itself. -/
theorem visits_of_copied {operands : List Node} {taken : List (Option Node)}
    (spares : target.Spares address) (enough : target.nodes.length ≤ budget)
    (each : ∀ operand ∈ operands, stripBelow address target budget operand =
      Walk.give (inlineBelow address target operand))
    (copied : List.Forall₂ (Tree.Copied address target) operands taken) :
    List.Forall₂ (fun operand (entry : Node × Option Node) =>
        stripBelow address target budget operand =
          Walk.give (entry.2.elim (inlineBelow address target entry.1) pure))
      (List.zipWith (fun operand copy => copy.getD operand) operands taken) (operands.zip taken) := by
  induction copied with
  | nil => exact .nil
  | cons here _ ih =>
      obtain ⟨visit, each⟩ := List.forall_mem_cons.1 each
      refine .cons ?_ (ih each)
      cases here with
      | copy names is =>
          exact stripBelow_of_spares (is.spares spares) (Nat.le_trans (Nat.le_of_eq is.length_nodes) enough)
      | none differs => exact visit

/-- If the collection does not refer to the address, the walk ends and inlines the references. -/
theorem stripBelow_eq (spares : target.Spares address)
    (enough : tree.nodes.length + target.nodes.length ≤ budget) :
    stripBelow address target budget tree = Walk.give (inlineBelow address target tree) := by
  induction budget generalizing tree with
  | zero =>
      have positive := tree.length_nodes_pos
      omega
  | succ budget ih =>
      obtain ⟨mark, operator, operands⟩ := tree
      funext next
      have positive := (Tree.node mark operator operands).length_nodes_pos
      have each : ∀ operand ∈ operands, stripBelow address target budget operand =
          Walk.give (inlineBelow address target operand) := by
        intro operand member
        have smaller := Tree.length_nodes_lt mark operator member
        exact ih (by omega)
      obtain ⟨copied, -⟩ := Tree.copied_mapM_copyFor address target operands next
      have visited := Walk.mapM_eq_give (visits_of_copied spares (by omega) each copied)
      rw [stripBelow_succ, Tree.inlineBelow_node, mapM_copyOver, visited]
      rfl

/-- A walk that meets a reference replaces it by a copy and visits the copy.  So if the collection refers
to the address below its root, no budget is enough. -/
theorem stripBelow_eq_none (loops : ∃ operand ∈ target.operands, ¬ operand.Spares address)
    (meets : ∃ operand ∈ tree.operands, ¬ operand.Spares address) (next : Nat) :
    stripBelow address target budget tree next = none := by
  induction budget generalizing tree next with
  | zero => rfl
  | succ budget ih =>
      obtain ⟨mark, operator, operands⟩ := tree
      rw [Tree.operands_node] at meets
      obtain ⟨operand, member, refers⟩ := meets
      obtain ⟨index, found⟩ := List.getElem?_of_mem member
      obtain ⟨later, visited⟩ :=
        Fresh.exists_getElem?_mapM (copyOver address target) operands next index
      rw [found, Option.map_some] at visited
      have again : ∃ operand' ∈ (copyOver address target operand later).1.operands,
          ¬ operand'.Spares address := by
        by_cases names : operand.operator.target? = some address
        · rw [copyOver_of_target names]
          exact Tree.exists_operand_of_shape_eq (Tree.shape_number target later) loops
        · rw [copyOver_of_ne names]
          exact Tree.exists_operand_of_not_spares names refers
      have never := Walk.mapM_eq_none (List.mem_of_getElem? visited) (fun next => ih again next)
        (operands.mapM (copyOver address target) next).2
      rw [stripBelow_succ]
      show Option.bind _ _ = none
      rw [never]
      rfl

theorem stripRoot_eq (spares : target.Spares address) {root : Node}
    (enough : root.nodes.length + target.nodes.length ≤ budget) :
    stripRoot address target budget root = Walk.give (inlineIn address target root) := by
  rw [stripRoot]
  split
  · next names => rw [Tree.inlineIn_of_target names]
  · next differs => rw [Tree.inlineIn_of_ne differs, stripBelow_eq spares enough]

end Walking

section Substituting

variable {state after : State} {address : Address} {target : Node}

/-- The stored trees, slot by slot. -/
def trees (state : State) : List Node := state.slots.filterMap id

theorem mem_trees {tree : Node} : tree ∈ state.trees ↔ ∃ handle, state.resolve handle = some tree := by
  rw [trees, List.mem_filterMap]
  constructor
  · rintro ⟨slot, member, rfl⟩
    obtain ⟨index, found⟩ := List.getElem?_of_mem member
    exact ⟨⟨index⟩, congrArg Option.join found⟩
  · rintro ⟨handle, found⟩
    exact ⟨some tree, List.mem_of_getElem? (Option.join_eq_some_iff.1 found), rfl⟩

/-- If the collection does not refer to the address, taking the references out ends and inlines them. -/
theorem strip_eq (spares : target.Spares address) {budget : Nat}
    (enough : (state.trees.flatMap Tree.nodes).length + target.nodes.length ≤ budget) :
    state.strip address target budget = Walk.give (state.inlineReferences address target) := by
  have slots : state.slots.mapM (fun slot =>
      match slot with
      | some root => some <$> stripRoot address target budget root
      | none => pure none) = Walk.give (state.slots.mapM (inlineSlot address target)) := by
    refine Walk.mapM_eq_give (List.forall₂_same.2 fun slot member => ?_)
    cases slot with
    | none => rfl
    | some root =>
        have isTree : root ∈ state.trees := List.mem_filterMap.2 ⟨_, member, rfl⟩
        have fewer := Tree.length_nodes_le isTree
        simp only [stripRoot_eq spares (Nat.le_trans (Nat.add_le_add_right fewer _) enough)]
        rfl
  rw [strip, slots]
  rfl

/-- What stored trees become when copies of a collection are put in place of the references to an
address: the names and the occupied slots stay, and no reference to the address is left. -/
structure Substitutes (state : State) (address : Address) (target : Node) (next : Nat)
    (after : State) (later : Nat) : Prop where
  names : ∀ space, after.names space = state.names space
  occupied : after.slots.map Option.isSome = state.slots.map Option.isSome
  trees : Tree.Inlines address target state.trees next after.trees later
  spared : ∀ tree ∈ after.trees, tree.Spares address

/-- Inlining goes through the stored trees one by one. -/
theorem inlines_mapM_inlineSlot (address : Address) (target : Node) (slots : List (Option Node))
    (next : Nat) :
    let result := slots.mapM (inlineSlot address target) next
    result.1.map Option.isSome = slots.map Option.isSome ∧
      Tree.Inlines address target (slots.filterMap id) next (result.1.filterMap id) result.2 := by
  induction slots generalizing next with
  | nil => exact ⟨rfl, [], .nil, nofun, .nil next⟩
  | cons slot rest ih =>
      rw [List.mapM_cons]
      cases slot with
      | none =>
          obtain ⟨occupied, inlines⟩ := ih next
          exact ⟨congrArg (false :: ·) occupied, inlines⟩
      | some root =>
          have first := Tree.inlines_inlineIn address target root next
          obtain ⟨occupied, inlines⟩ := ih (inlineIn address target root next).2
          exact ⟨congrArg (true :: ·) occupied, first.append inlines⟩

theorem substitutes_inlineReferences (spares : target.Spares address) (state : State) (next : Nat) :
    state.Substitutes address target next (state.inlineReferences address target next).1
      (state.inlineReferences address target next).2 := by
  obtain ⟨occupied, inlines⟩ := inlines_mapM_inlineSlot address target state.slots next
  refine ⟨fun space => ?_, occupied, inlines, inlines.spares spares⟩
  cases space <;> rfl

/-- A reference in one stored tree, at any depth, names another. -/
def Cites (state : State) (source target : Handle) : Prop :=
  ∃ tree, state.resolve source = some tree ∧
    ∃ node ∈ tree.nodes, ∃ address, node.operator.target? = some address ∧
      state.lookup address = some target

/-- Every reference in a stored tree, at any depth, names a stored tree. -/
def Grounded (state : State) : Prop :=
  ∀ tree ∈ state.trees, ∀ node ∈ tree.nodes, ∀ address, node.operator.target? = some address →
    (state.get? address).isSome

/-- A reference at any depth of a stored tree names one of the addresses of the tree. -/
theorem WellFormed.mem_addresses (wellFormed : state.WellFormed) {handle : Handle} {tree node : Node}
    (stored : state.resolve handle = some tree) (member : node ∈ tree.nodes)
    (names : node.operator.target? = some address) : address ∈ tree.addresses := by
  have valid := (Tree.validate_shape tree).1 (wellFormed.valid (content_of_resolve stored))
  by_contra absent
  exact Tree.spares_of_not_mem valid absent node member names

theorem WellFormed.calls_of_cites (wellFormed : state.WellFormed) {source goal : Handle}
    (cites : state.Cites source goal) : state.Calls source goal := by
  obtain ⟨tree, stored, node, member, address, names, leads⟩ := cites
  exact wellFormed.calls_of_mem (content_of_resolve stored)
    (wellFormed.mem_addresses stored member names) leads

theorem WellFormed.grounded (wellFormed : state.WellFormed) (closed : state.Closed) :
    state.Grounded := by
  intro tree isTree node member address names
  obtain ⟨handle, stored⟩ := mem_trees.1 isTree
  have inside := wellFormed.mem_addresses stored member names
  rw [← Tree.addresses_shape] at inside
  obtain ⟨goal, leads⟩ := Option.isSome_iff_exists.1
    (closed handle tree.shape (content_of_resolve stored) address inside)
  have there := wellFormed.occupied leads
  rw [get?, leads]
  exact there

/-- A name that is not the removed one leads to a tree afterwards if it did before. -/
theorem isSome_get?_remove {next : Nat} (removed : (state.remove address next).1 = .ok after)
    {other : Address} (different : other ≠ address) (there : (state.get? other).isSome) :
    (after.get? other).isSome := by
  obtain ⟨handle, target, -, -, rfl, -⟩ := remove_cases removed
  obtain ⟨tree, got⟩ := Option.isSome_iff_exists.1 there
  obtain ⟨goal, leads, stored⟩ := Option.bind_eq_some_iff.1 got
  let inlined := ((state.unname address).inlineReferences address target next).1
  have stillLeads : inlined.lookup other = some goal := by
    rw [lookup_inlineReferences, lookup_unname, if_neg different, leads]
  have stillStored : (inlined.resolve goal).isSome := by
    obtain ⟨later, resolves⟩ :=
      (state.unname address).exists_resolve_inlineReferences address target next goal
    rw [resolves, resolve_unname, stored]
    rfl
  have released : (inlined.release handle).resolve goal = inlined.resolve goal := by
    rw [resolve_release, if_neg]
    rintro ⟨rfl, unnamed⟩
    rw [isNamed_eq_true.2 ⟨other, stillLeads⟩] at unnamed
    cases unnamed
  rw [get?, lookup_bindAll, lookup_release, stillLeads, Option.bind_some, bindAll, resolve_mapRoots,
    Option.isSome_map, released]
  exact stillStored

/-- What is stored after a removal was inlined and then linked. -/
theorem exists_of_mem_trees_remove {next : Nat} (removed : (state.remove address next).1 = .ok after)
    {tree : Node} (member : tree ∈ after.trees) :
    ∃ target stripped, state.get? address = some target ∧ tree.shape = stripped.shape ∧
      stripped ∈ (state.inlineReferences address target next).1.trees := by
  obtain ⟨handle, target, leads, stored, rfl, -⟩ := remove_cases removed
  obtain ⟨goal, found⟩ := mem_trees.1 member
  rw [bindAll, resolve_mapRoots] at found
  obtain ⟨stripped, held, rfl⟩ := Option.map_eq_some_iff.1 found
  rw [resolve_release] at held
  split at held
  · cases held
  · have slots : ((state.unname address).inlineReferences address target next).1.slots =
        (state.inlineReferences address target next).1.slots := by
      show ((state.unname address).slots.mapM (inlineSlot address target) next).1 = _
      rw [unname, slots_setNames]
      rfl
    rw [resolve_congr slots] at held
    refine ⟨target, stripped, ?_, Tree.shape_bound _ stripped, mem_trees.2 ⟨goal, held⟩⟩
    rw [get?, leads]
    exact stored

/-- A collection that no references lead back to does not refer to its own names. -/
theorem spares_of_acyclic (acyclic : ∀ handle, ¬ Relation.TransGen state.Cites handle handle)
    (got : state.get? address = some target) : target.Spares address := by
  obtain ⟨handle, leads, stored⟩ := Option.bind_eq_some_iff.1 got
  exact fun node member names => acyclic handle
    (.single ⟨target, stored, node, member, address, names, leads⟩)

/-- Where no references run in cycles, what is left of the references after a removal names stored
trees if all references did before. -/
theorem Grounded.remove (grounded : state.Grounded)
    (acyclic : ∀ handle, ¬ Relation.TransGen state.Cites handle handle) {next : Nat}
    (removed : (state.remove address next).1 = .ok after) : after.Grounded := by
  intro tree isTree node member other names
  obtain ⟨target, stripped, got, same, isStripped⟩ := exists_of_mem_trees_remove removed isTree
  have spares := spares_of_acyclic acyclic got
  have substitutes := substitutes_inlineReferences spares state next
  -- The node says what one of the tree says before it is linked.
  obtain ⟨before, inside, operator⟩ := Tree.exists_mem_nodes_of_shape_eq same member
  rw [← operator] at names
  obtain ⟨copies, filled, are, -⟩ := substitutes.trees
  refine isSome_get?_remove removed ?_ ?_
  · rintro rfl
    exact substitutes.spared stripped isStripped before inside names
  · rcases filled.mem_nodes (List.mem_flatMap.2 ⟨stripped, isStripped, inside⟩) with
      copied | ⟨kept, isKept, -, same, -⟩
    · obtain ⟨copy, isCopy, inCopy⟩ := List.mem_flatMap.1 copied
      obtain ⟨original, isOriginal, same⟩ := Tree.exists_mem_nodes_of_shape_eq (are copy isCopy).shape inCopy
      rw [← same] at names
      obtain ⟨handle, -, stored⟩ := Option.bind_eq_some_iff.1 got
      exact grounded target (mem_trees.2 ⟨handle, stored⟩) original isOriginal other names
    · obtain ⟨tree, isTree, inTree⟩ := List.mem_flatMap.1 isKept
      rw [← same] at names
      exact grounded tree isTree kept inTree other names

/-- If a collection does not refer to an address, taking the references to the address out of the stored
trees ends.  It is what a removal does: each reference becomes a copy of the collection on new nodes,
nothing else changes, and no reference to the address is left.  And if all references named stored trees
and none ran in cycles, those that there are after a removal name stored trees. -/
theorem strip_substitutes (state : State) (address : Address) :
    (∀ (target : Node) (next : Nat), target.Spares address →
      ∃ after later, (∀ budget, (state.trees.flatMap Tree.nodes).length + target.nodes.length ≤ budget →
          state.strip address target budget next = some (after, later)) ∧
        state.inlineReferences address target next = (after, later) ∧
        state.Substitutes address target next after later) ∧
    ((∀ handle, ¬ Relation.TransGen state.Cites handle handle) → state.Grounded →
      ∀ next after, (state.remove address next).1 = .ok after → after.Grounded) := by
  refine ⟨fun target next spares => ?_, fun acyclic grounded next after removed =>
    grounded.remove acyclic removed⟩
  refine ⟨_, _, fun budget enough => congrFun (strip_eq spares enough) next, rfl, ?_⟩
  exact substitutes_inlineReferences spares state next

/-- A reference below a complement is replaced; and of two collections the one that refers to the other
still stands on its own when the other is removed. -/
theorem strip_substitutes_nested :
    let first : Address := ⟨.collections, "First"⟩
    let nested : State := { slots := [some (.node ⟨3, none⟩ { kind := .complement } [Sample.again])] }
    Sample.first.Spares first ∧
      (∃ after, (∀ budget, 4 ≤ budget → nested.strip first Sample.first budget 4 = some (after, 6)) ∧
        nested.Substitutes first Sample.first 4 after 6) ∧
      ∃ after, (Sample.both.remove first 4).1 = .ok after ∧ after.Grounded := by
  intro first nested
  have spares : Sample.first.Spares first := by
    unfold Tree.Spares
    decide +kernel
  have counts : (nested.inlineReferences first Sample.first 4).2 = 6 := rfl
  have wellFormed : Sample.both.WellFormed := by
    have saved : (({} : State).apply (.save first Sample.first) 0).1 = .ok Sample.one := rfl
    have savedAgain : (Sample.one.apply (.save ⟨.collections, "Again"⟩ Sample.again) 0).1 =
        .ok Sample.both := Sample.save_again
    exact (WellFormed.empty.apply saved).apply savedAgain
  have acyclic : ∀ handle, ¬ Relation.TransGen Sample.both.Cites handle handle := fun handle cycle =>
    Sample.acyclic_both.1 handle (Relation.TransGen.mono (fun _ _ => wellFormed.calls_of_cites) _ _ cycle)
  have removes : ∃ after, (Sample.both.remove ⟨.collections, "First"⟩ 4).1 = .ok after := ⟨_, rfl⟩
  obtain ⟨after, later, strips, inlines, substitutes⟩ :=
    (strip_substitutes nested first).1 Sample.first 4 spares
  rw [inlines] at counts
  obtain rfl : later = 6 := counts
  obtain ⟨removed, removes⟩ := removes
  have grounded := (strip_substitutes Sample.both first).2 acyclic
    (wellFormed.grounded Sample.acyclic_both.2) 4 removed removes
  exact ⟨spares, ⟨after, strips, substitutes⟩, removed, removes, grounded⟩

end Substituting

end State

end Medley
