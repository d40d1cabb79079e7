import Medley.Proofs.Meaning.Evaluation

/-!
# Trees with their operands in another order

The operands of a union and of an intersection may stand in any order: a tree that is rearranged means
the same (`Tree.Rearranged.means`), asks media for the same fields in another order, and can be lowered
whenever the tree can (`State.total_predicate`).  Whether a tree can be lowered does not depend on the
alias table, so the order in which fields are registered cannot make a lowering fail.
-/

namespace Medley

/-! ## Meanings up to the order of their conditions -/

theorem Truth.and_left_comm (first second third : Truth) :
    first.and (second.and third) = second.and (first.and third) := by
  rcases first with _ | _ | _ <;> rcases second with _ | _ | _ <;> rcases third with _ | _ | _ <;> rfl

theorem Truth.or_left_comm (first second third : Truth) :
    first.or (second.or third) = second.or (first.or third) := by
  rcases first with _ | _ | _ <;> rcases second with _ | _ | _ <;> rcases third with _ | _ | _ <;> rfl

namespace Meaning

/-- Whether two meanings have the same filters, in whatever order, and are true of the same media. -/
structure Equivalent (left right : Meaning) : Prop where
  conditions : left.conditions.Perm right.conditions
  truth : ∀ medium, left.truth medium = right.truth medium

namespace Equivalent

variable {left middle right : Meaning} {lefts rights : List Meaning}

theorem refl (meaning : Meaning) : meaning.Equivalent meaning := ⟨.refl _, fun _ => rfl⟩

theorem trans (first : left.Equivalent middle) (second : middle.Equivalent right) :
    left.Equivalent right :=
  ⟨first.conditions.trans second.conditions,
    fun medium => (first.truth medium).trans (second.truth medium)⟩

theorem complement (same : left.Equivalent right) : left.complement.Equivalent right.complement :=
  ⟨same.conditions, fun medium => congrArg Truth.not (same.truth medium)⟩

theorem filtered (condition : Condition) (same : left.Equivalent right) :
    (left.filtered condition).Equivalent (right.filtered condition) :=
  ⟨same.conditions.cons condition,
    fun medium => congrArg (condition.truth medium).and (same.truth medium)⟩

theorem all (each : List.Forall₂ Equivalent lefts rights) :
    (Meaning.all lefts).Equivalent (.all rights) := by
  induction each with
  | nil => exact refl _
  | cons head _ ih =>
      refine ⟨head.conditions.append ih.conditions, ?_⟩
      intro medium
      exact congrArg₂ Truth.and (head.truth medium) (ih.truth medium)

theorem any (each : List.Forall₂ Equivalent lefts rights) :
    (Meaning.any lefts).Equivalent (.any rights) := by
  induction each with
  | nil => exact refl _
  | cons head _ ih =>
      refine ⟨head.conditions.append ih.conditions, ?_⟩
      intro medium
      exact congrArg₂ Truth.or (head.truth medium) (ih.truth medium)

theorem all_of_perm (permutes : lefts.Perm rights) :
    (Meaning.all lefts).Equivalent (.all rights) := by
  refine ⟨permutes.flatMap_right Meaning.conditions, ?_⟩
  intro medium
  exact permutes.foldr_eq' (fun first _ second _ rest =>
    Truth.and_left_comm (second.truth medium) (first.truth medium) rest) (some true)

theorem any_of_perm (permutes : lefts.Perm rights) :
    (Meaning.any lefts).Equivalent (.any rights) := by
  refine ⟨permutes.flatMap_right Meaning.conditions, ?_⟩
  intro medium
  exact permutes.foldr_eq' (fun first _ second _ rest =>
    Truth.or_left_comm (second.truth medium) (first.truth medium) rest) (some false)

end Equivalent

end Meaning

/-- A node means the same over operands that do. -/
theorem View.meaning_equivalent (onReference : Address → Meaning) {ι : Type} {left right : ι → Meaning}
    (each : ∀ operand, (left operand).Equivalent (right operand)) (view : View ι) :
    ((view.map left).meaning onReference).Equivalent ((view.map right).meaning onReference) := by
  have several : ∀ operands : List ι,
      List.Forall₂ Meaning.Equivalent (operands.map left) (operands.map right) := by
    intro operands
    rw [List.forall₂_map_left_iff, List.forall₂_map_right_iff, List.forall₂_same]
    exact fun operand _ => each operand
  cases view with
  | reference name space => exact .refl _
  | «universe» => exact .refl _
  | union operands => exact .any (several operands)
  | intersection operands => exact .all (several operands)
  | complement operand => exact (each operand).complement
  | mediaset operand => exact each operand
  | has field operand => exact (each operand).filtered _
  | filter test field value caseSensitive operand => exact (each operand).filtered _
  | order field direction operand => exact each operand
  | limit start length operand => exact each operand
  | list form ids operand => exact .refl _

/-! ## Rearranged trees -/

/-- Whether the operands of an operator may stand in any order. -/
def Operator.Commutes (operator : Operator) : Prop :=
  operator.kind = .union ∨ operator.kind = .intersection

namespace Operator

variable {ω : Type} {operator : Operator} {operands : List ω}

theorem view_of_union (isUnion : operator.kind = .union) (some : operands ≠ []) :
    operator.view operands = .ok (.union operands) := by
  cases operands with
  | nil => exact absurd rfl some
  | cons first rest =>
      simp only [view, isUnion]
      rfl

theorem view_of_intersection (isIntersection : operator.kind = .intersection) (some : operands ≠ []) :
    operator.view operands = .ok (.intersection operands) := by
  cases operands with
  | nil => exact absurd rfl some
  | cons first rest =>
      simp only [view, isIntersection]
      rfl

theorem ne_nil_of_view (commutes : operator.Commutes) {view : View ω}
    (reads : operator.view operands = .ok view) : operands ≠ [] := by
  rintro rfl
  rcases commutes with kind | kind
  · rw [Operator.view, kind] at reads
    obtain ⟨_, fails, _⟩ := Except.bind_eq_ok.1 reads
    cases fails
  · rw [Operator.view, kind] at reads
    obtain ⟨_, fails, _⟩ := Except.bind_eq_ok.1 reads
    cases fails

end Operator

namespace Tree

/-- Whether two trees differ only in the order of the operands of unions and intersections, at
whatever depth these are. -/
inductive Rearranged {α : Type} : Tree α → Tree α → Prop where
  | node {mark : α} {operator : Operator} {operands operands' : List (Tree α)}
      (each : List.Forall₂ Rearranged operands operands') :
      Rearranged (.node mark operator operands) (.node mark operator operands')
  | permute {mark : α} {operator : Operator} {operands between operands' : List (Tree α)}
      (commutes : operator.Commutes) (each : List.Forall₂ Rearranged operands between)
      (permutes : between.Perm operands') :
      Rearranged (.node mark operator operands) (.node mark operator operands')

namespace Rearranged

theorem refl {α : Type} (tree : Tree α) : tree.Rearranged tree := by
  induction tree using Tree.induction with
  | node mark operator operands ih => exact .node (List.forall₂_same.2 ih)

theorem operator_eq {α : Type} {left right : Tree α} (rearranged : left.Rearranged right) :
    right.operator = left.operator := by
  cases rearranged with
  | node each => rfl
  | permute commutes each permutes => rfl

theorem length_eq {α : Type} {left right : Tree α} (rearranged : left.Rearranged right) :
    right.operands.length = left.operands.length := by
  cases rearranged with
  | node each => exact each.length_eq.symm
  | permute commutes each permutes => exact permutes.length_eq.symm.trans each.length_eq.symm

/-- What is the whole library stays so, for it has no operands to look at. -/
theorem isEverything_eq {left right : Node} (rearranged : left.Rearranged right) :
    right.isEverything = left.isEverything := by
  have same := rearranged.operator_eq
  unfold isEverything
  simp only [Tree.kind, Tree.attribute?, Tree.attributes, same]

end Rearranged

section Meaning

variable (meanings : Option Handle → Address → Meaning) {mark : Mark} {operator : Operator}
  {operands operands' : List Node}

theorem meaning_operands (each : List.Forall₂
      (fun left right => (left.meaning meanings).Equivalent (right.meaning meanings))
      operands operands') :
    (meaning meanings (.node mark operator operands)).Equivalent
      (meaning meanings (.node mark operator operands')) := by
  obtain ⟨pairs, rfl, rfl⟩ := exists_pairs each
  rw [meaning_node, meaning_node, List.map_map, List.map_map, Operator.view_map, Operator.view_map]
  split
  · exact .refl _
  · cases operator.view pairs with
    | error error => exact .refl _
    | ok view => exact view.meaning_equivalent (meanings mark.link) fun pair => pair.2

theorem meaning_of_perm (commutes : operator.Commutes) (permutes : operands.Perm operands') :
    (meaning meanings (.node mark operator operands)).Equivalent
      (meaning meanings (.node mark operator operands')) := by
  by_cases nothing : operands = []
  · subst nothing
    rw [permutes.nil_eq]
    exact .refl _
  · have some : operands.map (meaning meanings) ≠ [] := by simpa using nothing
    have some' : operands'.map (meaning meanings) ≠ [] := by
      intro none
      rw [List.map_eq_nil_iff.1 none] at permutes
      exact nothing permutes.eq_nil
    rw [meaning_node, meaning_node]
    split
    · exact .refl _
    · rcases commutes with isUnion | isIntersection
      · rw [Operator.view_of_union isUnion some, Operator.view_of_union isUnion some']
        exact .any_of_perm (permutes.map _)
      · rw [Operator.view_of_intersection isIntersection some,
          Operator.view_of_intersection isIntersection some']
        exact .all_of_perm (permutes.map _)

/-- A rearranged tree means the same. -/
theorem Rearranged.means {left right : Node} (rearranged : left.Rearranged right) :
    (left.meaning meanings).Equivalent (right.meaning meanings) := by
  induction left using Tree.induction generalizing right with
  | node mark operator operands ih =>
      cases rearranged with
      | node each =>
          refine meaning_operands meanings (forall₂_of_mem each ?_)
          exact fun operand member _ same => ih operand member same
      | permute commutes each permutes =>
          refine (meaning_operands meanings (forall₂_of_mem each ?_)).trans
            (meaning_of_perm meanings commutes permutes)
          exact fun operand member _ same => ih operand member same

end Meaning

end Tree

/-! ## Lowering them -/

namespace Compiling

variable {α β : Type}

/-- Whether a compilation succeeds on every table. -/
def Total (action : Compiling α) : Prop := ∀ table, ∃ result, action table = .ok result

namespace Total

theorem pure (value : α) : Total (Pure.pure value) := fun table => ⟨(value, table), rfl⟩

theorem register (field : String) (isOptional : Bool) : Total (Compiling.register field isOptional) :=
  fun table => ⟨table.register field isOptional, rfl⟩

theorem bind {action : Compiling α} {next : α → Compiling β} (first : Total action)
    (second : ∀ value, Total (next value)) : Total (action >>= next) := by
  intro table
  obtain ⟨⟨value, between⟩, acts⟩ := first table
  obtain ⟨result, ends⟩ := second value between
  exact ⟨result, bind_eq_ok.2 ⟨value, between, acts, ends⟩⟩

theorem mapM {ι : Type} {action : ι → Compiling α} {items : List ι}
    (each : ∀ item ∈ items, Total (action item)) : Total (items.mapM action) := by
  induction items with
  | nil => exact pure []
  | cons item rest ih =>
      rw [List.mapM_cons]
      refine (each item (.head _)).bind fun value => ?_
      refine (ih fun other member => each other (.tail _ member)).bind fun values => ?_
      exact pure (value :: values)

theorem withOperand {left right : Node × Compiling Predicate} {filter : Predicate}
    (everything : right.1.isEverything = left.1.isEverything)
    (implies : Succeeds left.2 → Total right.2) {filter' : Predicate}
    (succeeds : Succeeds (withOperand filter left)) : Total (withOperand filter' right) := by
  have visited := succeeds.of_withOperand
  unfold Medley.withOperand
  rw [everything]
  rcases visited with whole | succeeds
  · rw [if_pos whole]
    exact pure filter'
  · split
    · exact pure filter'
    · exact (implies succeeds).bind fun value => pure _

end Total

/-- Whether a number can be read does not depend on the column that it is compared with. -/
theorem exists_filterLiteral_eq_ok {operator : Operator} {test : FilterTest} {column : Column}
    {value : String} {caseSensitive : Bool} {literal : Comparison × Literal}
    (reads : filterLiteral operator test column value caseSensitive = .ok literal)
    (column' : Column) :
    ∃ literal, filterLiteral operator test column' value caseSensitive = .ok literal := by
  unfold filterLiteral at reads ⊢
  cases test with
  | equals => exact ⟨_, rfl⟩
  | notEqual => exact ⟨_, rfl⟩
  | pattern => cases caseSensitive <;> exact ⟨_, rfl⟩
  | token => exact ⟨_, rfl⟩
  | smaller | smallerEq | greater | greaterEq =>
      simp only at reads ⊢
      cases number : Text.readInt64? value with
      | some number => exact ⟨_, rfl⟩
      | none =>
          rw [number] at reads
          cases reads

end Compiling

open Compiling

section Lowering

variable {onReference onReference' : Address → Compiling Predicate}

/-- A node that can be lowered can be lowered on every table, over operands of which that is true. -/
theorem View.total_lower
    (references : ∀ address, Succeeds (onReference address) → Total (onReference' address))
    {operator : Operator} {ι : Type} {left right : ι → Node × Compiling Predicate}
    (everything : ∀ operand, (right operand).1.isEverything = (left operand).1.isEverything)
    (each : ∀ operand, Succeeds (left operand).2 → Total (right operand).2) {view : View ι}
    (succeeds : Succeeds ((view.map left).lower onReference operator)) :
    Total ((view.map right).lower onReference' operator) := by
  have several : ∀ {operands : List ι}, Succeeds ((operands.map left).mapM Prod.snd) →
      Total ((operands.map right).mapM Prod.snd) := by
    intro operands succeeds
    rw [List.mapM_map] at succeeds ⊢
    exact .mapM fun operand member => each operand (succeeds.of_mapM operand member)
  cases view with
  | reference name space =>
      simp only [View.map, View.lower] at succeeds ⊢
      split
      · exact .pure _
      · next stored =>
        rw [if_neg stored] at succeeds
        cases read : Namespace.read (space.getD "") with
        | error error =>
            rw [read] at succeeds
            exact absurd succeeds (not_succeeds_throw error)
        | ok space =>
            rw [read] at succeeds
            exact references ⟨space, name⟩ succeeds
  | «universe» => exact .pure _
  | union operands => exact (several succeeds.of_bind.1).bind fun _ => .pure _
  | intersection operands => exact (several succeeds.of_bind.1).bind fun _ => .pure _
  | complement operand => exact (each operand succeeds.of_bind.1).bind fun _ => .pure _
  | mediaset operand => exact each operand succeeds
  | order field direction operand => exact each operand succeeds
  | limit start length operand => exact each operand succeeds
  | list form ids operand => exact .pure _
  | has field operand =>
      obtain ⟨column, succeeds⟩ := succeeds.of_bind.2
      refine (Total.register field true).bind fun column' => ?_
      exact .withOperand (everything operand) (each operand) succeeds
  | filter test field value caseSensitive operand =>
      obtain ⟨column, succeeds⟩ := succeeds.of_bind.2
      refine (Total.register field.name false).bind fun column' => ?_
      cases reads : filterLiteral operator test column value caseSensitive with
      | error error =>
          rw [reads] at succeeds
          exact absurd succeeds.of_bind.1 (not_succeeds_throw error)
      | ok literal =>
          obtain ⟨literal', reads'⟩ := exists_filterLiteral_eq_ok reads column'
          rw [reads] at succeeds
          rw [reads']
          obtain ⟨_, succeeds⟩ := succeeds.of_bind.2
          exact .withOperand (everything operand) (each operand) succeeds

end Lowering

namespace Tree

section Lowering

variable {onReference onReference' : Option Handle → Address → Compiling Predicate} {mark : Mark}
  {operator : Operator} {operands operands' : List Node}

theorem total_lower_operands
    (references : ∀ link address, Succeeds (onReference link address) →
      Total (onReference' link address))
    (each : List.Forall₂ (fun left right => right.isEverything = left.isEverything ∧
      (Succeeds (lower onReference left) → Total (lower onReference' right))) operands operands')
    (succeeds : Succeeds (lower onReference (.node mark operator operands))) :
    Total (lower onReference' (.node mark operator operands')) := by
  obtain ⟨pairs, rfl, rfl⟩ := exists_pairs each
  rw [lower_node, List.map_map, Operator.view_map] at succeeds ⊢
  cases reads : operator.view pairs with
  | error error =>
      rw [reads] at succeeds
      exact absurd succeeds (not_succeeds_throw error)
  | ok view =>
      rw [reads] at succeeds
      exact View.total_lower (references mark.link) (fun pair => pair.2.1) (fun pair => pair.2.2)
        succeeds

/-- A union or an intersection that can be lowered has operands, and each of them can be lowered. -/
theorem succeeds_operands (commutes : operator.Commutes)
    (succeeds : Succeeds (lower onReference (.node mark operator operands))) :
    operands ≠ [] ∧ ∀ operand ∈ operands, Succeeds (lower onReference operand) := by
  have each : Succeeds ((operands.map fun operand => (operand, lower onReference operand)).mapM
      Prod.snd) → ∀ operand ∈ operands, Succeeds (lower onReference operand) := by
    intro succeeds operand member
    rw [List.mapM_map] at succeeds
    exact succeeds.of_mapM operand member
  rw [lower_node] at succeeds
  generalize isLowered : operands.map (fun operand => (operand, lower onReference operand)) = lowered
    at succeeds each
  have some : lowered ≠ [] := by
    obtain ⟨table, _, reads⟩ := succeeds.of_bind.1
    cases read : operator.view lowered with
    | error error =>
        rw [read] at reads
        cases reads
    | ok view => exact Operator.ne_nil_of_view commutes read
  have visits : Succeeds (lowered.mapM Prod.snd) := by
    rcases commutes with isUnion | isIntersection
    · rw [Operator.view_of_union isUnion some] at succeeds
      have lowers : Succeeds (View.lower (onReference mark.link) operator (.union lowered)) := succeeds
      exact lowers.of_bind.1
    · rw [Operator.view_of_intersection isIntersection some] at succeeds
      have lowers : Succeeds (View.lower (onReference mark.link) operator (.intersection lowered)) :=
        succeeds
      exact lowers.of_bind.1
  refine ⟨?_, each visits⟩
  rintro rfl
  exact some isLowered.symm

/-- A union or an intersection can be lowered on every table if its operands can. -/
theorem total_lower_commuting (commutes : operator.Commutes) (some : operands ≠ [])
    (each : ∀ operand ∈ operands, Total (lower onReference operand)) :
    Total (lower onReference (.node mark operator operands)) := by
  have several : Total ((operands.map fun operand => (operand, lower onReference operand)).mapM
      Prod.snd) := by
    rw [List.mapM_map]
    exact .mapM each
  have some' : operands.map (fun operand => (operand, lower onReference operand)) ≠ [] := by
    simpa using some
  rw [lower_node]
  rcases commutes with isUnion | isIntersection
  · rw [Operator.view_of_union isUnion some']
    exact several.bind fun _ => .pure _
  · rw [Operator.view_of_intersection isIntersection some']
    exact several.bind fun _ => .pure _

/-- A rearranged tree can be lowered on every table if the tree can be lowered on some. -/
theorem Rearranged.total_lower
    (references : ∀ link address, Succeeds (onReference link address) →
      Total (onReference' link address))
    {left right : Node} (rearranged : left.Rearranged right)
    (succeeds : Succeeds (lower onReference left)) : Total (lower onReference' right) := by
  induction left using Tree.induction generalizing right with
  | node mark operator operands ih =>
      cases rearranged with
      | node each =>
          refine total_lower_operands references (forall₂_of_mem each ?_) succeeds
          exact fun operand member _ same => ⟨same.isEverything_eq, ih operand member same⟩
      | permute commutes each permutes =>
          obtain ⟨some, lowers⟩ := succeeds_operands commutes succeeds
          obtain ⟨pairs, rfl, rfl⟩ := exists_pairs (forall₂_of_mem each
            fun operand member _ same => ih operand member same (lowers operand member))
          refine total_lower_commuting commutes ?_ fun operand member => ?_
          · rintro rfl
            exact some (List.map_eq_nil_iff.2 (List.map_eq_nil_iff.1 permutes.eq_nil))
          · obtain ⟨pair, -, rfl⟩ := List.mem_map.1 (permutes.mem_iff.2 member)
            exact pair.2

end Lowering

/-- Orders and limits have one operand, so they stay at the root of a rearranged tree. -/
theorem Rearranged.peel {left right : Node} {peeled : Peeled} (rearranged : left.Rearranged right)
    (peels : left.peel = .ok peeled) :
    ∃ root, right.peel = .ok ⟨peeled.orders, peeled.limit, root⟩ ∧ peeled.root.Rearranged root := by
  induction left using Tree.induction generalizing right peeled with
  | node mark operator operands ih =>
      have whole := peels
      rw [peel_node] at peels
      obtain ⟨view, reads, peels⟩ := Except.bind_eq_ok.1 peels
      -- The operand of an operator with no other stays where it is.
      have single : ∀ operand, operands = [operand] →
          ∃ operand', right = .node mark operator [operand'] ∧ operand.Rearranged operand' := by
        rintro operand rfl
        cases rearranged with
        | node each =>
            cases each with
            | cons head tail =>
                cases tail
                exact ⟨_, rfl, head⟩
        | permute commutes each permutes =>
            cases each with
            | cons head tail =>
                cases tail
                rw [List.singleton_perm] at permutes
                exact ⟨_, permutes ▸ rfl, head⟩
      cases view with
      | order field direction operand =>
          obtain rfl := Operator.operands_of_view_order reads
          obtain ⟨operand', rfl, same⟩ := single operand rfl
          obtain ⟨inner, below, rfl⟩ := Except.map_eq_ok.1 peels
          obtain ⟨root, peels, stays⟩ := ih operand (.head _) same below
          refine ⟨root, ?_, stays⟩
          rw [peel_node, Operator.view_singleton reads]
          show (Tree.peel operand').map _ = _
          rw [peels]
          rfl
      | limit start length operand =>
          obtain rfl := Operator.operands_of_view_limit reads
          obtain ⟨operand', rfl, same⟩ := single operand rfl
          obtain ⟨inner, below, rfl⟩ := Except.map_eq_ok.1 peels
          obtain ⟨root, peels, stays⟩ := ih operand (.head _) same below
          refine ⟨root, ?_, stays⟩
          rw [peel_node, Operator.view_singleton reads]
          show (Tree.peel operand').map _ = _
          rw [peels]
          rfl
      | _ =>
          obtain rfl := Except.ok.inj peels
          exact ⟨right, peel_root whole rearranged.operator_eq rearranged.length_eq, rearranged⟩

/-- What is peeled off a tree does not change what it means. -/
theorem meaning_peel (meanings : Option Handle → Address → Meaning) {node : Node} {peeled : Peeled}
    (peels : node.peel = .ok peeled) : peeled.root.meaning meanings = node.meaning meanings := by
  induction node using Tree.induction generalizing peeled with
  | node mark operator operands ih =>
      rw [peel_node] at peels
      obtain ⟨view, reads, peels⟩ := Except.bind_eq_ok.1 peels
      have means : meaning meanings (.node mark operator operands) =
          (view.map (meaning meanings)).meaning (meanings mark.link) := by
        refine meaning_of_view ?_
        rw [Operator.view_map, reads]
        rfl
      cases view with
      | order field direction operand =>
          obtain rfl := Operator.operands_of_view_order reads
          obtain ⟨inner, below, rfl⟩ := Except.map_eq_ok.1 peels
          exact (ih operand (.head _) below).trans means.symm
      | limit start length operand =>
          obtain rfl := Operator.operands_of_view_limit reads
          obtain ⟨inner, below, rfl⟩ := Except.map_eq_ok.1 peels
          exact (ih operand (.head _) below).trans means.symm
      | _ =>
          obtain rfl := Except.ok.inj peels
          rfl

end Tree

namespace State

/-- Stored collections stay as they are, so a rearranged tree is lowered through the same references. -/
theorem total_predicateWithin (state : State) (budget : Nat) (visiting : List Handle)
    {left right : Node} (rearranged : left.Rearranged right)
    (succeeds : Succeeds (state.predicateWithin budget visiting left)) :
    Total (state.predicateWithin budget visiting right) := by
  induction budget generalizing visiting left right with
  | zero =>
      refine rearranged.total_lower ?_ succeeds
      exact fun _ _ fails => absurd fails (not_succeeds_throw _)
  | succ budget ih =>
      rw [predicateWithin_eq_lower] at succeeds ⊢
      refine rearranged.total_lower (fun link address succeeds => ?_) succeeds
      rcases state.pursue_cases budget visiting link address with
        ⟨error, fails⟩ | ⟨handle, target, leads, enters⟩
      · exact absurd succeeds (fails ▸ not_succeeds_throw error)
      · rw [enters] at succeeds ⊢
        exact ih (handle :: visiting) (.refl target) succeeds

/-- A rearranged tree can be lowered on every table if the tree can be lowered on some. -/
theorem total_predicate (state : State) {left right : Node} (rearranged : left.Rearranged right)
    (succeeds : Succeeds (state.predicate left)) : Total (state.predicate right) :=
  state.total_predicateWithin (state.slots.length + 1) [] rearranged succeeds

theorem meaning_rearranged (state : State) {left right : Node} (rearranged : left.Rearranged right) :
    (state.meaning left).Equivalent (state.meaning right) := by
  rw [meaning, meaningWithin]
  exact rearranged.means _

theorem meaning_peel (state : State) {node : Node} {peeled : Peeled} (peels : node.peel = .ok peeled) :
    state.meaning peeled.root = state.meaning node := by
  rw [meaning, meaningWithin]
  exact Tree.meaning_peel _ peels

end State

end Medley
