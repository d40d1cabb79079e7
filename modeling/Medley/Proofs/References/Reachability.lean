import Medley.Proofs.Meaning.Asking

/-!
# What references reach

From one reference to the next there is a step if the collection that the first leads to holds the
second.  The search for an address visits no collection twice, and yet misses nothing: from a tree it
finds the address exactly if steps lead from a reference in the tree to one that means it, whatever is
stored.  Where all else in a tree is in order, the check for saving it at the address fails because of a
cycle exactly if there are such steps (`State.reaches_iff_leadsTo`).
-/

namespace Medley

namespace Tree

/-- A reference stands in a tree: a node names its address and carries its link.  References own no
operands, so nothing counts that stands below one. -/
inductive Refers : Node → Address × Option Handle → Prop
  | here {mark : Mark} {operator : Operator} {operands : List Node} {address : Address}
      (names : operator.target? = some address) :
      Refers (.node mark operator operands) (address, mark.link)
  | inside {mark : Mark} {operator : Operator} {operands : List Node} {operand : Node}
      {reference : Address × Option Handle} (other : operator.kind ≠ .reference)
      (member : operand ∈ operands) (refers : Refers operand reference) :
      Refers (.node mark operator operands) reference

variable {tree : Node} {reference : Address × Option Handle}

theorem mem_references_iff : reference ∈ tree.references ↔ tree.Refers reference := by
  constructor
  · intro member
    induction tree using Tree.induction with
    | node mark operator operands ih =>
        rw [references_node] at member
        split at member
        · obtain ⟨address, names, rfl⟩ := Option.map_eq_some_iff.1 (Option.mem_toList.1 member)
          exact .here names
        · next other =>
          obtain ⟨operand, inside, member⟩ := List.mem_flatMap.1 member
          exact .inside other inside (ih operand inside member)
  · intro refers
    induction refers with
    | here names =>
        rw [references_node, if_pos (Operator.kind_of_target? names), names]
        exact List.mem_singleton.2 rfl
    | inside other member _ ih =>
        rw [references_node, if_neg other]
        exact List.mem_flatMap.2 ⟨_, member, ih⟩

/-- If a tree keeps the rules of its kinds, a check of it fails as that of one of its references. -/
theorem exists_of_check_eq_error {onReference : Option Handle → Address → Except Error Unit}
    {error : Error} (valid : tree.validate = .ok ())
    (fails : tree.check (fun mark => onReference mark.link) = .error error) :
    ∃ reference, tree.Refers reference ∧ onReference reference.2 reference.1 = .error error := by
  induction tree using Tree.induction with
  | node mark operator operands ih =>
      obtain ⟨⟨view, reads, refers⟩, below⟩ := (validate_node ..).1 valid
      rw [check_eq_bind, reads] at fails
      have fails : (view.test (onReference mark.link) >>= fun _ =>
        forM operands (check fun mark => onReference mark.link)) = .error error := fails
      have refers := (Operator.refers_iff reads fun _ => True).1 refers
      rcases Except.bind_eq_error.1 fails with own | ⟨-, -, later⟩
      · cases view with
        | reference name space =>
            by_cases all : name = allMedia
            · simp [View.test, all] at own
            · obtain ⟨found, read, -⟩ := refers.1 all
              rw [View.test, if_neg all, read] at own
              exact ⟨_, .here (Operator.target?_of_view reads all read), own⟩
        | _ => cases own
      · obtain ⟨operand, member, later⟩ := List.exists_of_forM_eq_error later
        have other : operator.kind ≠ .reference := fun reference => by
          rw [Operator.operands_eq_nil_of_reference reads reference] at member
          cases member
        obtain ⟨reference, refers, fails⟩ := ih operand member (below operand member) later
        exact ⟨reference, .inside other member refers, fails⟩

end Tree

namespace State

variable {state : State} {address : Address} {goal : SaveTarget}

/-- A reference leads to a stored collection that holds another reference. -/
def Continues (state : State) (before next : Address × Option Handle) : Prop :=
  ∃ handle tree, state.follow before.2 before.1 = some handle ∧ state.resolve handle = some tree ∧
    tree.Refers next

/-- A reference means an address: it names it, or leads to the handle that is stored there. -/
def Means (state : State) (reference : Address × Option Handle) (address : Address) : Prop :=
  reference.1 = address ∨
    ∃ handle, state.follow reference.2 reference.1 = some handle ∧ state.lookup address = some handle

/-- A chain of references goes from one to one that means an address. -/
def LeadsTo (state : State) (first : Address × Option Handle) (address : Address) : Prop :=
  ∃ last, Relation.ReflTransGen state.Continues first last ∧ state.Means last address

theorem isMeantBy_saveTarget {other : Address} {handle : Option Handle} :
    (state.saveTarget address).isMeantBy other handle = true ↔
      other = address ∨ ∃ found, handle = some found ∧ state.lookup address = some found := by
  rw [SaveTarget.isMeantBy, saveTarget, Bool.or_eq_true, beq_iff_eq]
  refine or_congr_right ?_
  cases handle with
  | none => simp
  | some found =>
      rw [Option.isSome_some, Bool.true_and, beq_iff_eq]
      constructor
      · intro same
        exact ⟨found, rfl, same.symm⟩
      · rintro ⟨_, ⟨⟩, leads⟩
        exact leads.symm

variable {first : Address × Option Handle} {references : List (Address × Option Handle)}

/-- A chain ends where it starts or goes on from there. -/
theorem leadsTo_iff :
    state.LeadsTo first address ↔
      state.Means first address ∨ ∃ next, state.Continues first next ∧ state.LeadsTo next address := by
  constructor
  · rintro ⟨last, path, means⟩
    rcases Relation.ReflTransGen.cases_head path with rfl | ⟨next, step, path⟩
    · exact .inl means
    · exact .inr ⟨next, step, last, path, means⟩
  · rintro (means | ⟨next, step, last, path, means⟩)
    · exact ⟨first, .refl, means⟩
    · exact ⟨last, .head step path, means⟩

/-- The search without visited collections finds an address exactly if a chain leads to it. -/
theorem meets_iff_leadsTo :
    state.Meets (state.saveTarget address) [] references ↔
      ∃ first ∈ references, state.LeadsTo first address := by
  constructor
  · intro meets
    generalize visited : ([] : List Handle) = seen at meets
    clear visited
    induction meets with
    | here member meant => exact ⟨_, member, leadsTo_iff.2 (.inl (isMeantBy_saveTarget.1 meant))⟩
    | there member leads _ stored _ ih =>
        obtain ⟨next, inside, leadsOn⟩ := ih
        exact ⟨_, member, leadsTo_iff.2 (.inr ⟨next,
          ⟨_, _, leads, stored, Tree.mem_references_iff.1 inside⟩, leadsOn⟩)⟩
  · rintro ⟨first, member, last, path, means⟩
    induction path using Relation.ReflTransGen.head_induction_on generalizing references with
    | refl => exact .here member (isMeantBy_saveTarget.2 means)
    | head step _ ih =>
        obtain ⟨handle, tree, leads, stored, refers⟩ := step
        exact .there member leads List.not_mem_nil stored (ih (Tree.mem_references_iff.2 refers))

/-- The search finds an address exactly if a chain leads from the tree to it. -/
theorem reaches_eq_true {tree : Node} :
    state.reaches tree address = true ↔ ∃ first, tree.Refers first ∧ state.LeadsTo first address := by
  rw [reaches, reachesFrom_eq_true, meets_iff_leadsTo]
  simp only [Tree.mem_references_iff]

section Check

variable {tree : Node} {reference : Address × Option Handle}

/-- What the check for saving asks of a reference besides where it leads: a collection is there, a link
goes to what the address names, and the address to save at is not meant. -/
structure InOrder (state : State) (address : Address) (reference : Address × Option Handle) : Prop where
  leads : ∃ handle, state.follow reference.2 reference.1 = some handle ∧
    (state.resolve handle).isSome
  linked : ∀ handle, reference.2 = some handle → state.lookup reference.1 = some handle
  other : ¬ state.Means reference address

/-- The check of a reference that is in order asks for a chain alone. -/
theorem InOrder.check (inOrder : state.InOrder address reference) :
    (state.LeadsTo reference address →
        state.checkReference (some (state.saveTarget address)) reference.2 reference.1 =
          fail (.cyclicReference address.name address.space.name)) ∧
      (¬ state.LeadsTo reference address →
        state.checkReference (some (state.saveTarget address)) reference.2 reference.1 = .ok ()) := by
  obtain ⟨⟨handle, leads, occupied⟩, linked, other⟩ := inOrder
  obtain ⟨stored, found⟩ := Option.isSome_iff_exists.1 occupied
  -- The search below what the reference leads to has been there already, which hides nothing.
  have search : state.reachesFrom (state.saveTarget address) [handle] stored.references = true ↔
      state.LeadsTo reference address := by
    rw [reachesFrom_eq_true, leadsTo_iff, or_iff_right other]
    constructor
    · intro meets
      obtain ⟨next, member, leadsOn⟩ := meets_iff_leadsTo.1 meets.of_visited
      exact ⟨next, ⟨handle, stored, leads, found, Tree.mem_references_iff.1 member⟩, leadsOn⟩
    · rintro ⟨next, ⟨_, _, leads', found', refers⟩, leadsOn⟩
      obtain rfl := Option.some.inj (leads.symm.trans leads')
      obtain rfl := Option.some.inj (found.symm.trans found')
      have meets := meets_iff_leadsTo.2 ⟨next, Tree.mem_references_iff.2 refers, leadsOn⟩
      exact (meets.avoid found).elim id id
  rw [follow_eq_lookup linked] at leads
  have agrees : reference.2.any (· != handle) = false := by
    rw [Option.any_eq_false]
    intro bound link
    obtain rfl := Option.some.inj ((linked bound link).symm.trans leads)
    simp
  have meant : ¬ (state.saveTarget address).isMeantBy reference.1 (some handle) = true := by
    rw [isMeantBy_saveTarget]
    rintro (named | ⟨_, ⟨⟩, same⟩)
    · exact other (.inl named)
    · exact other (.inr ⟨handle, (follow_eq_lookup linked).trans leads, same⟩)
  simp only [checkReference, leads, Option.any_some, meant, agrees, found, Bool.false_eq_true, if_false]
  exact ⟨fun leadsOn => if_pos (search.2 leadsOn), fun far => if_neg (mt search.1 far)⟩

/-- If a tree keeps the rules of its kinds and its references are in order, the check for saving it
fails because of a cycle if a chain leads from one of them to the address. -/
theorem validate_of_leadsTo (valid : tree.validate = .ok ())
    (inOrder : ∀ reference, tree.Refers reference → state.InOrder address reference)
    (refers : tree.Refers reference) (leadsOn : state.LeadsTo reference address) :
    state.validate tree (some address) = fail (.cyclicReference address.name address.space.name) := by
  cases checked : tree.check
      (fun mark => state.checkReference (some (state.saveTarget address)) mark.link) with
  | ok value =>
      have passes := ((Tree.check_eq_ok_iff _ tree).1 checked).2 _ (Tree.mem_references_iff.2 refers)
      rw [(inOrder reference refers).check.1 leadsOn] at passes
      cases passes
  | error error =>
      obtain ⟨failing, refers, fails⟩ := Tree.exists_of_check_eq_error valid checked
      have checks := (inOrder failing refers).check
      by_cases leadsOn : state.LeadsTo failing address
      · unfold State.validate
        rw [Option.map_some, checked, ← fails, checks.1 leadsOn]
        rfl
      · rw [checks.2 leadsOn] at fails
        cases fails

/-- Without such a chain nothing is left that can fail but the rule for playlists. -/
theorem exists_of_validate_eq_error (valid : tree.validate = .ok ())
    (inOrder : ∀ reference, tree.Refers reference → state.InOrder address reference) {error : Error}
    (fails : state.validate tree (some address) = .error error)
    (cyclic : error.kind = .cyclicReference) :
    ∃ first, tree.Refers first ∧ state.LeadsTo first address := by
  by_contra far
  have passes : tree.check
      (fun mark => state.checkReference (some (state.saveTarget address)) mark.link) = .ok () := by
    refine (Tree.check_eq_ok_iff _ tree).2 ⟨valid, fun reference member => ?_⟩
    have refers := Tree.mem_references_iff.1 member
    exact (inOrder reference refers).check.2 fun leadsOn => far ⟨reference, refers, leadsOn⟩
  unfold State.validate at fails
  rw [Option.map_some, passes] at fails
  obtain ⟨space, name⟩ := address
  cases space with
  | collections => cases fails
  | playlists =>
      have fails : (if tree.kind.isList then pure () else fail (.notAPlaylist name tree.kind.name)) =
        .error error := fails
      split at fails
      · cases fails
      · cases fails
        cases cyclic

/-- Whatever is stored, the search from a tree finds an address exactly if a chain of references leads
there.  If a tree keeps the rules of its kinds and its references are in order, the check for saving it
fails because of a cycle exactly if a chain leads from one of them to the address. -/
theorem reaches_iff_leadsTo (state : State) (tree : Node) (address : Address) :
    let chain := ∃ first, tree.Refers first ∧ state.LeadsTo first address
    (state.reaches tree address = true ↔ chain) ∧
      (tree.validate = .ok () → (∀ reference, tree.Refers reference → state.InOrder address reference) →
        (chain → state.validate tree (some address) =
          fail (.cyclicReference address.name address.space.name)) ∧
        ∀ error, state.validate tree (some address) = .error error →
          error.kind = .cyclicReference → chain) := by
  intro chain
  refine ⟨reaches_eq_true, fun valid inOrder => ⟨?_, ?_⟩⟩
  · rintro ⟨first, refers, leadsOn⟩
    exact validate_of_leadsTo valid inOrder refers leadsOn
  · exact fun error => exists_of_validate_eq_error valid inOrder

/-- Saving under the first of two names a reference to the second, which refers to the first. -/
theorem reaches_first_again :
    let tree : Node := .reference ⟨3, none⟩ "Again" Namespace.collections.name
    let address : Address := ⟨.collections, "First"⟩
    tree.validate = .ok () ∧
      (∀ reference, tree.Refers reference → Sample.both.InOrder address reference) ∧
      Sample.both.reaches tree address = true ∧
      Sample.both.validate tree (some address) = fail (.cyclicReference "First" "Collections") := by
  intro tree address
  have valid : tree.validate = .ok () := rfl
  have only : ∀ reference, tree.Refers reference → reference = (⟨.collections, "Again"⟩, none) :=
    fun reference refers => List.mem_singleton.1 (Tree.mem_references_iff.2 refers)
  have inOrder : ∀ reference, tree.Refers reference → Sample.both.InOrder address reference := by
    intro reference refers
    rw [only reference refers]
    refine ⟨⟨⟨1⟩, rfl, rfl⟩, nofun, ?_⟩
    rintro (named | ⟨handle, leads, same⟩)
    · exact absurd (congrArg Address.name named) (by decide)
    · obtain rfl : (⟨1⟩ : Handle) = handle := Option.some.inj leads
      have other : Sample.both.lookup ⟨.collections, "First"⟩ = some ⟨0⟩ := by decide
      cases other.symm.trans same
  have leadsTo : ∃ first, tree.Refers first ∧ Sample.both.LeadsTo first address := by
    refine ⟨(⟨.collections, "Again"⟩, none), .here rfl, leadsTo_iff.2 (.inr ?_)⟩
    exact ⟨(address, some ⟨0⟩), ⟨⟨1⟩, _, rfl, rfl, .here rfl⟩, leadsTo_iff.2 (.inl (.inl rfl))⟩
  obtain ⟨finds, checks⟩ := reaches_iff_leadsTo Sample.both tree address
  exact ⟨valid, inOrder, finds.2 leadsTo, (checks valid inOrder).1 leadsTo⟩

end Check

end State

end Medley
