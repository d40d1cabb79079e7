import Medley.Proofs.Meaning.Asking

/-!
# Collections that share less

Names may share a collection in one state and have equal ones of their own in another.  Nothing that
compiles in the first state is compiled to anything else in the second (`State.Unshares.compile_eq`):
only fewer references run into a collection that is being compiled.  Neither state need be free of
cycles.
-/

namespace Medley.State

open Compiling

/-- Names have equal collections in both states, and share none afterwards that they did not share. -/
structure Unshares (state after : State) : Prop where
  shapes : ∀ address, after.shapeAt address = state.shapeAt address
  shared : ∀ {left right handle}, after.lookup left = some handle →
    after.lookup right = some handle → state.lookup left = state.lookup right

namespace Unshares

variable {state after : State} (unshares : state.Unshares after) (wellFormed : state.WellFormed)
  (afterwards : after.WellFormed)

include unshares wellFormed afterwards

/-- A tree that is compiled in the first state has the same predicate in the second, if the
collections entered there stand for ones entered here. -/
theorem agrees {budget budget' : Nat} {visiting visiting' : List Handle} {node node' : Node}
    (valid : node.validate = .ok ()) (same : node'.shape = node.shape)
    (linked : node.Linked state.lookup) (linked' : node'.Linked after.lookup)
    (enough : (after.unvisited visiting').length < budget')
    (entered : ∀ handle' ∈ visiting', ∃ address handle, after.lookup address = some handle' ∧
      state.lookup address = some handle ∧ handle ∈ visiting) :
    Agrees Eq True (state.predicateWithin budget visiting node)
      (after.predicateWithin budget' visiting' node') := by
  have valid' := Tree.validate_of_shape_eq same.symm valid
  induction budget' generalizing budget visiting visiting' node node' with
  | zero => omega
  | succ budget' ih =>
      rw [predicateWithin_succ valid' linked']
      obtain _ | budget := budget
      · -- With nothing left the first state fails at every reference, which a lenient agreement allows.
        let refuse (address : Address) : Compiling Predicate :=
          throw { cause := .cyclicReference address.name address.space.name }
        have exhausted : state.predicateWithin 0 visiting node = lower (fun _ => refuse) node := rfl
        have alike : Alike Eq True (node, lower (fun _ => refuse) node)
            (node', lower (fun _ => after.enter budget' visiting') node') :=
          Tree.alike_of_shape_eq Predicate.congruence_eq valid same fun _ _ => .of_throw trivial _ _
        rw [exhausted]
        exact alike.agrees
      rw [predicateWithin_succ valid linked]
      refine (Tree.alike_of_shape_eq Predicate.congruence_eq valid same fun address member => ?_).agrees
      unfold enter
      cases leads : state.lookup address with
      | none => exact .of_throw trivial _ _
      | some handle =>
          by_cases visited : handle ∈ visiting
          · simp only [if_pos visited]
            exact .of_throw trivial _ _
          obtain ⟨tree, stored⟩ := Option.isSome_iff_exists.1 (wellFormed.occupied leads)
          have shapes := unshares.shapes address
          rw [shapeAt_of_lookup leads, content_of_resolve stored] at shapes
          obtain ⟨handle', tree', leads', stored', equal⟩ := shapeAt_eq_some.1 shapes
          have isNew : handle' ∉ visiting' := by
            intro inside
            obtain ⟨other, before, found', found, was⟩ := entered handle' inside
            have shared := unshares.shared leads' found'
            rw [leads, found] at shared
            exact visited (Option.some.inj shared ▸ was)
          have smaller := unvisited_cons_lt isNew (by rw [stored']; rfl)
          have rules := (Tree.validate_shape tree).1 (wellFormed.valid (content_of_resolve stored))
          simp only [leads', if_neg visited, if_neg isNew, stored, stored']
          refine ih rules equal (wellFormed.linked stored) (afterwards.linked stored') (by omega) ?_
            (Tree.validate_of_shape_eq equal.symm rules)
          intro entering inside
          rcases List.mem_cons.1 inside with rfl | inside
          · exact ⟨address, handle, leads', leads, .head _⟩
          · obtain ⟨other, before, found', found, was⟩ := entered entering inside
            exact ⟨other, before, found', found, .tail _ was⟩

/-- What a tree is compiled to in the first state it is compiled to in the second. -/
theorem compile_eq {tree tree' : Node} (valid : tree.validate = .ok ())
    (same : tree'.shape = tree.shape) (linked : tree.Linked state.lookup)
    (linked' : tree'.Linked after.lookup) {defaultBase : String} {params : QueryParams}
    {query : CompiledQuery} (compiles : state.compile defaultBase tree params = .ok query) :
    after.compile defaultBase tree' params = .ok query := by
  obtain ⟨peeled, peels⟩ := Tree.exists_peel valid
  obtain ⟨root, peels'⟩ := Tree.peel_of_shape_eq same peels
  rw [State.compile_eq peels] at compiles
  rw [State.compile_eq peels']
  have fits : (after.unvisited []).length < after.slots.length + 1 :=
    Nat.lt_succ_of_le (after.length_unvisited_le [])
  have step : Agree Eq True (state.predicate tree { defaultBase })
      (after.predicate tree' { defaultBase }) :=
    unshares.agrees wellFormed afterwards valid same linked linked' fits
      (fun _ inside => nomatch inside) { defaultBase }
  generalize state.predicate tree { defaultBase } = before at step compiles
  generalize after.predicate tree' { defaultBase } = now at step
  cases step with
  | ok table equal =>
      obtain rfl := equal
      exact compiles
  | error error => cases compiles
  | lenient _ error _ => cases compiles

end Unshares

end Medley.State
