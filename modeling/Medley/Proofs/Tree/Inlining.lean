import Medley.Proofs.Tree.Substitution

/-!
# Copies in place of references

Inlining puts a copy of a collection in place of each reference to an address, whether the reference is
the root or stands below it, and looks neither below a reference that it replaces nor into a copy
(`Tree.inlines_inlineIn`).  All else stays as it is, and the nodes of the copies get numbers that are
handed out one by one.
-/

namespace Medley

namespace Fresh

/-- Whether some numbers are those that are handed out in between. -/
def Spends (next later : Nat) (numbers : List Nat) : Prop :=
  next ≤ later ∧ numbers.Perm (List.range' next (later - next))

variable {α β : Type} {first next later last : Nat} {numbers more : List Nat}

theorem Spends.nil (next : Nat) : Spends next next [] :=
  ⟨Nat.le_refl next, by rw [Nat.sub_self, List.range'_zero]⟩

theorem Spends.append (early : Spends first next numbers) (late : Spends next last more) :
    Spends first last (numbers ++ more) := by
  obtain ⟨grows, spent⟩ := early
  obtain ⟨growsLater, spentLater⟩ := late
  refine ⟨Nat.le_trans grows growsLater, ?_⟩
  obtain ⟨count, rfl⟩ := Nat.exists_eq_add_of_le grows
  obtain ⟨countLater, rfl⟩ := Nat.exists_eq_add_of_le growsLater
  rw [Nat.add_sub_cancel_left] at spent spentLater
  rw [Nat.add_assoc, Nat.add_sub_cancel_left, ← List.range'_append_1]
  exact spent.append spentLater

theorem Spends.perm (spends : Spends next later numbers) (same : more.Perm numbers) :
    Spends next later more :=
  ⟨spends.1, same.trans spends.2⟩

theorem spends_mapM (action : α → Fresh β) (numbers : β → List Nat) (items : List α)
    (each : ∀ item ∈ items, ∀ next, Spends next (action item next).2 (numbers (action item next).1))
    (next : Nat) :
    Spends next (items.mapM action next).2 ((items.mapM action next).1.flatMap numbers) := by
  induction items generalizing next with
  | nil => exact .nil next
  | cons item rest ih =>
      rw [List.mapM_cons]
      exact (each item (.head _) next).append
        (ih (fun other member => each other (.tail _ member)) _)

theorem forall_mapM {action : α → Fresh β} {holds : β → Prop} {items : List α}
    (each : ∀ item ∈ items, ∀ next, holds (action item next).1) (next : Nat) :
    ∀ result ∈ (items.mapM action next).1, holds result := by
  induction items generalizing next with
  | nil => exact fun _ member => nomatch member
  | cons item rest ih =>
      rw [List.mapM_cons]
      exact List.forall_mem_cons.2 ⟨each item (.head _) next,
        ih (fun other member => each other (.tail _ member)) _⟩

end Fresh

namespace Tree

/-- The identities of the nodes of a tree. -/
def identities (node : Node) : List Nat := node.nodes.map identity

theorem identities_node (mark : Mark) (operator : Operator) (operands : List Node) :
    identities (.node mark operator operands) = mark.identity :: operands.flatMap identities := by
  rw [identities, nodes_node, List.map_cons, List.map_flatMap]
  rfl

section Numbering

variable {α : Type}

/-- A tree that is numbered gets one number for each node. -/
theorem spends_number (tree : Tree α) (next : Nat) :
    Fresh.Spends next (tree.number next).2 (tree.number next).1.identities := by
  induction tree using Tree.induction generalizing next with
  | node mark operator operands ih =>
      have below := Fresh.spends_mapM number identities operands ih (next + 1)
      have count : (number (.node mark operator operands) next).2 =
          (operands.mapM number (next + 1)).2 := by
        simp only [number, fold_node, List.mapM_map]
        rfl
      have root : Fresh.Spends next (next + 1) [next] := ⟨Nat.le_succ next, by simp⟩
      rw [count, number_node, identities_node]
      exact root.append below

theorem link_number (tree : Tree α) (next : Nat) :
    ∀ node ∈ (tree.number next).1.nodes, node.link = none := by
  induction tree using Tree.induction generalizing next with
  | node mark operator operands ih =>
      rw [number_node, nodes_node]
      refine List.forall_mem_cons.2 ⟨rfl, fun node member => ?_⟩
      obtain ⟨operand, inside, below⟩ := List.mem_flatMap.1 member
      have unlinked : ∀ operand ∈ (operands.mapM number (next + 1)).1, ∀ node ∈ nodes operand,
          node.link = none := Fresh.forall_mapM ih (next + 1)
      exact unlinked operand inside node below

end Numbering

/-- Whether one tree is a copy of another: it says the same and has no links. -/
structure IsCopy (copy target : Node) : Prop where
  shape : copy.shape = target.shape
  unlinked : ∀ node ∈ copy.nodes, node.link = none

theorem isCopy_number (target : Node) (next : Nat) : IsCopy (target.number next).1 target :=
  ⟨shape_number target next, link_number target next⟩

section Sparing

variable {address : Address} {tree : Node}

/-- Whether no node of a tree is a reference to an address. -/
def Spares (address : Address) (tree : Node) : Prop :=
  ∀ node ∈ tree.nodes, node.operator.target? ≠ some address

theorem spares_node {mark : Mark} {operator : Operator} {operands : List Node} :
    Spares address (.node mark operator operands) ↔
      operator.target? ≠ some address ∧ ∀ operand ∈ operands, operand.Spares address := by
  simp only [Spares, nodes_node, List.forall_mem_cons, List.forall_mem_flatMap, operator_node]

theorem Spares.operator (spares : tree.Spares address) : tree.operator.target? ≠ some address := by
  obtain ⟨mark, operator, operands⟩ := tree
  exact (spares_node.1 spares).1

end Sparing

/-- What some trees become when the references to an address are replaced by some copies, in their
order: nothing else is changed. -/
inductive Filled (address : Address) : List Node → List Node → List Node → Prop where
  | nil : Filled address [] [] []
  | copy {tree copy : Node} {trees copies others : List Node}
      (names : tree.operator.target? = some address) (rest : Filled address trees copies others) :
      Filled address (tree :: trees) (copy :: copies) (copy :: others)
  | keep {mark : Mark} {operator : Operator}
      {operands copiesBelow operands' trees copies others : List Node}
      (differs : operator.target? ≠ some address)
      (below : Filled address operands copiesBelow operands')
      (rest : Filled address trees copies others) :
      Filled address (.node mark operator operands :: trees) (copiesBelow ++ copies)
        (.node mark operator operands' :: others)

namespace Filled

variable {address : Address} {tree : Node} {trees copies others more copiesMore othersMore : List Node}

theorem append (filled : Filled address trees copies others)
    (later : Filled address more copiesMore othersMore) :
    Filled address (trees ++ more) (copies ++ copiesMore) (others ++ othersMore) := by
  induction filled with
  | nil => exact later
  | copy names _ ih => exact .copy names ih
  | keep differs below _ _ ih =>
      rw [List.append_assoc]
      exact .keep differs below ih

/-- What the trees say afterwards. -/
theorem map_shape (filled : Filled address trees copies others) {shape : Shape}
    (same : ∀ copy ∈ copies, copy.shape = shape) :
    others.map Tree.shape = trees.map (substitute (·.inlined address shape)) := by
  induction filled with
  | nil => rfl
  | @copy tree _ _ _ _ names _ ih =>
      obtain ⟨mark, operator, operands⟩ := tree
      obtain ⟨here, rest⟩ := List.forall_mem_cons.1 same
      have replaced : operator.inlined address shape = some shape := if_pos names
      rw [List.map_cons, List.map_cons, ih rest, here, substitute_node, replaced, Option.getD_some]
  | keep differs _ _ ihBelow ih =>
      have kept : Operator.inlined address shape _ = none := if_neg differs
      rw [List.map_cons, List.map_cons, ih fun copy member => same copy (List.mem_append_right _ member),
        shape_node, ihBelow fun copy member => same copy (List.mem_append_left _ member),
        substitute_node, kept, Option.getD_none]

/-- Without references to the address nothing is replaced. -/
theorem eq_of_spares (filled : Filled address trees copies others)
    (spare : ∀ tree ∈ trees, tree.Spares address) : copies = [] ∧ others = trees := by
  induction filled with
  | nil => exact ⟨rfl, rfl⟩
  | copy names _ _ => exact absurd names (spare _ (.head _)).operator
  | keep differs _ _ ihBelow ih =>
      obtain ⟨here, rest⟩ := List.forall_mem_cons.1 spare
      obtain ⟨rfl, rfl⟩ := ihBelow (spares_node.1 here).2
      obtain ⟨rfl, rfl⟩ := ih rest
      exact ⟨rfl, rfl⟩

/-- A node afterwards is one of a copy, or one from before that is no reference to the address. -/
theorem mem_nodes (filled : Filled address trees copies others) {node : Node}
    (member : node ∈ others.flatMap nodes) :
    node ∈ copies.flatMap nodes ∨ ∃ before ∈ trees.flatMap nodes,
      before.mark = node.mark ∧ before.operator = node.operator ∧
        node.operator.target? ≠ some address := by
  induction filled with
  | nil => cases member
  | copy names _ ih =>
      rw [List.flatMap_cons] at member ⊢
      rcases List.mem_append.1 member with here | there
      · exact .inl (List.mem_append_left _ here)
      · refine (ih there).imp (List.mem_append_right _) ?_
        rintro ⟨before, inside, same⟩
        exact ⟨before, List.mem_append_right _ inside, same⟩
  | @keep mark operator operands _ _ _ _ _ differs _ _ ihBelow ih =>
      rw [List.flatMap_cons, nodes_node, List.cons_append] at member
      rw [List.flatMap_append, List.flatMap_cons, nodes_node, List.cons_append]
      rcases List.mem_cons.1 member with rfl | member
      · exact .inr ⟨_, .head _, rfl, rfl, differs⟩
      rcases List.mem_append.1 member with below | there
      · refine (ihBelow below).imp (List.mem_append_left _) ?_
        rintro ⟨before, inside, same⟩
        exact ⟨before, .tail _ (List.mem_append_left _ inside), same⟩
      · refine (ih there).imp (List.mem_append_right _) ?_
        rintro ⟨before, inside, same⟩
        exact ⟨before, .tail _ (List.mem_append_right _ inside), same⟩

end Filled

/-- What some trees become when the references to an address are replaced by copies of a collection,
with the numbers that are handed out. -/
def Inlines (address : Address) (target : Node) (trees : List Node) (next : Nat)
    (others : List Node) (later : Nat) : Prop :=
  ∃ copies, Filled address trees copies others ∧ (∀ copy ∈ copies, IsCopy copy target) ∧
    Fresh.Spends next later (copies.flatMap identities)

section Inlining

variable {address : Address} {target tree : Node} {trees others more othersMore : List Node}
  {next later last : Nat}

theorem Inlines.append (first : Inlines address target trees next others later)
    (second : Inlines address target more later othersMore last) :
    Inlines address target (trees ++ more) next (others ++ othersMore) last := by
  obtain ⟨copies, filled, are, spends⟩ := first
  obtain ⟨copiesMore, filledMore, areMore, spendsMore⟩ := second
  refine ⟨copies ++ copiesMore, filled.append filledMore,
    List.forall_mem_append.2 ⟨are, areMore⟩, ?_⟩
  rw [List.flatMap_append]
  exact spends.append spendsMore

/-- What is taken for a tree before what is below the others. -/
inductive Copied (address : Address) (target : Node) : Node → Option Node → Prop where
  | copy {tree copy : Node} (names : tree.operator.target? = some address)
      (is : IsCopy copy target) : Copied address target tree (some copy)
  | none {tree : Node} (differs : tree.operator.target? ≠ some address) :
      Copied address target tree none

theorem copyFor_of_target (names : tree.operator.target? = some address) (target : Node) :
    State.copyFor address target tree = some <$> target.number := if_pos names

theorem copyFor_of_ne (differs : tree.operator.target? ≠ some address) (target : Node) :
    State.copyFor address target tree = pure none := if_neg differs

/-- A copy is taken for a tree if it is a reference to the address. -/
theorem copied_copyFor (address : Address) (target tree : Node) (next : Nat) :
    let taken := State.copyFor address target tree next
    Copied address target tree taken.1 ∧
      Fresh.Spends next taken.2 (taken.1.toList.flatMap identities) := by
  intro taken
  by_cases names : tree.operator.target? = some address
  · have is : taken = (some (target.number next).1, (target.number next).2) :=
      congrFun (copyFor_of_target names target) next
    rw [is]
    refine ⟨.copy names (isCopy_number target next), ?_⟩
    simpa using spends_number target next
  · have is : taken = (none, next) := congrFun (copyFor_of_ne names target) next
    rw [is]
    exact ⟨.none names, .nil next⟩

theorem copied_mapM_copyFor (address : Address) (target : Node) (trees : List Node) (next : Nat) :
    let taken := trees.mapM (State.copyFor address target) next
    List.Forall₂ (Copied address target) trees taken.1 ∧
      Fresh.Spends next taken.2 ((taken.1.flatMap Option.toList).flatMap identities) := by
  induction trees generalizing next with
  | nil => exact ⟨.nil, .nil next⟩
  | cons tree rest ih =>
      obtain ⟨here, spends⟩ := copied_copyFor address target tree next
      obtain ⟨others, spendsMore⟩ := ih (State.copyFor address target tree next).2
      intro taken
      have is : taken = _ := congrFun (List.mapM_cons (f := State.copyFor address target)) next
      rw [is]
      refine ⟨.cons here others, ?_⟩
      show Fresh.Spends next _ (((_ :: _ : List (Option Node)).flatMap Option.toList).flatMap identities)
      rw [List.flatMap_cons, List.flatMap_append]
      exact spends.append spendsMore

/-- What is below a node is inlined after the copies for its operands. -/
theorem inlineBelow_node (address : Address) (target : Node) (mark : Mark) (operator : Operator)
    (operands : List Node) :
    State.inlineBelow address target (.node mark operator operands) = (do
      let copies ← operands.mapM (State.copyFor address target)
      let operands ← (operands.zip copies).mapM fun (operand, copy) =>
        copy.elim (State.inlineBelow address target operand) pure
      return .node mark operator operands) := by
  rw [State.inlineBelow, fold_node]
  simp only [List.mapM_map, List.zip_map_left]
  rfl

/-- The operands that are no references are inlined below, and the copies stay. -/
theorem filled_mapM {below : Node → Fresh Node} {taken : List (Option Node)}
    (each : ∀ tree ∈ trees, tree.operator.target? ≠ some address → ∀ next,
      Inlines address target [tree] next [(below tree next).1] (below tree next).2)
    (copied : List.Forall₂ (Copied address target) trees taken) (next : Nat) :
    let settle : Node × Option Node → Fresh Node := fun (tree, copy) => copy.elim (below tree) pure
    let result := (trees.zip taken).mapM settle next
    ∃ copies numbers, Filled address trees copies result.1 ∧ (∀ copy ∈ copies, IsCopy copy target) ∧
      Fresh.Spends next result.2 numbers ∧
      (copies.flatMap identities).Perm
        ((taken.flatMap Option.toList).flatMap identities ++ numbers) := by
  induction copied generalizing next with
  | nil => exact ⟨[], [], .nil, fun _ member => (nomatch member), .nil next, .refl _⟩
  | @cons tree copy rest taken here _ ih =>
      have eachRest := fun other member => each other (.tail tree member)
      intro settle
      rw [List.zip_cons_cons, List.mapM_cons]
      cases here with
      | @copy copy names is =>
          obtain ⟨copies, numbers, filled, are, spends, same⟩ := ih eachRest next
          refine ⟨copy :: copies, numbers, .copy names filled, List.forall_mem_cons.2 ⟨is, are⟩,
            spends, ?_⟩
          simp only [List.flatMap_cons, Option.toList_some, List.cons_append, List.nil_append,
            List.append_assoc]
          exact same.append_left _
      | none differs =>
          obtain ⟨copiesHere, filledHere, areHere, spendsHere⟩ := each tree (.head _) differs next
          obtain ⟨copies, numbers, filled, are, spends, same⟩ := ih eachRest (below tree next).2
          refine ⟨copiesHere ++ copies, copiesHere.flatMap identities ++ numbers,
            filledHere.append filled, List.forall_mem_append.2 ⟨areHere, are⟩,
            spendsHere.append spends, ?_⟩
          simp only [List.flatMap_cons, Option.toList_none, List.nil_append, List.flatMap_append]
          exact (same.append_left _).trans (List.perm_append_comm_assoc ..)

/-- The references to an address below a root that is none are replaced by copies. -/
theorem inlines_inlineBelow (differs : tree.operator.target? ≠ some address) (next : Nat) :
    Inlines address target [tree] next [(State.inlineBelow address target tree next).1]
      (State.inlineBelow address target tree next).2 := by
  induction tree using Tree.induction generalizing next with
  | node mark operator operands ih =>
      let taken := operands.mapM (State.copyFor address target) next
      obtain ⟨copied, spendsFirst⟩ := copied_mapM_copyFor address target operands next
      obtain ⟨copies, numbers, filled, are, spends, same⟩ := filled_mapM ih copied taken.2
      rw [inlineBelow_node]
      refine ⟨copies ++ [], .keep differs filled .nil, ?_, ?_⟩
      · rwa [List.append_nil]
      · rw [List.append_nil]
        exact (spendsFirst.append spends).perm same

theorem inlineIn_of_target (names : tree.operator.target? = some address) (target : Node) :
    State.inlineIn address target tree = target.number := by
  rw [State.inlineIn, copyFor_of_target names]
  rfl

theorem inlineIn_of_ne (differs : tree.operator.target? ≠ some address) (target : Node) :
    State.inlineIn address target tree = State.inlineBelow address target tree := by
  rw [State.inlineIn, copyFor_of_ne differs]
  rfl

/-- The references to an address in a tree are replaced by copies. -/
theorem inlines_inlineIn (address : Address) (target tree : Node) (next : Nat) :
    Inlines address target [tree] next [(State.inlineIn address target tree next).1]
      (State.inlineIn address target tree next).2 := by
  by_cases names : tree.operator.target? = some address
  · have spends := spends_number target next
    rw [inlineIn_of_target names]
    refine ⟨[_], .copy names .nil, List.forall_mem_singleton.2 (isCopy_number target next), ?_⟩
    rwa [List.flatMap_singleton]
  · rw [inlineIn_of_ne names]
    exact inlines_inlineBelow names next

theorem shape_inlineIn (address : Address) (target tree : Node) (next : Nat) :
    (State.inlineIn address target tree next).1.shape =
      tree.substitute (·.inlined address target.shape) := by
  obtain ⟨copies, filled, are, -⟩ := inlines_inlineIn address target tree next
  exact List.head_eq_of_cons_eq (filled.map_shape fun copy member => (are copy member).shape)

end Inlining

end Tree

end Medley
