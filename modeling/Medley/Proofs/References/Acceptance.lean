import Medley.Proofs.Meaning.Asking
import Medley.Proofs.References.Descent

/-!
# What passes the checks compiles

The checks look at a tree itself and at the first step of its references; compiling goes on through the
collections that they lead to.  In a well-formed state these keep the rules of their kinds and are linked
to what they name; where they also name collections and do not run in cycles, compiling can fail in
nothing else (`State.exists_compile_of_validate`).
-/

namespace Medley.State

variable {state : State} {tree : Node}

/-- A tree is solid if it keeps the rules of its kinds, its links follow from its names, and these lead
to collections. -/
theorem solid_of_references (valid : tree.validate = .ok ()) (linked : tree.Linked state.lookup)
    (resolves : ∀ address ∈ tree.addresses, (state.get? address).isSome) : state.Solid tree where
  valid := valid
  leads reference visited := by
    have member := Tree.mem_references_of_mem_visits visited
    have named : reference.1 ∈ tree.addresses := by
      rw [← Tree.fst_references]
      exact List.mem_map_of_mem member
    rw [follow_eq_lookup (linked reference member)]
    exact resolves reference.1 named

/-- A tree that passes the checks is linked to what it names, and each name in it is in use. -/
theorem linked_of_validate (accepted : state.validate tree none = .ok ()) :
    tree.validate = .ok () ∧ tree.Linked state.lookup ∧
      ∀ address ∈ tree.addresses, (state.lookup address).isSome := by
  obtain ⟨valid, passes⟩ := (Tree.check_eq_ok_iff ..).1 (validate_none.1 accepted)
  have leads : ∀ reference ∈ tree.references, ∃ handle, state.lookup reference.1 = some handle ∧
      ∀ linked, reference.2 = some linked → linked = handle := by
    intro reference member
    have checked := passes reference member
    unfold checkReference at checked
    cases found : state.lookup reference.1 with
    | none =>
        rw [found] at checked
        cases checked
    | some handle =>
        refine ⟨handle, rfl, fun linked link => ?_⟩
        by_contra other
        simp [found, link, other, fail] at checked
  refine ⟨valid, fun reference member handle link => ?_, fun address named => ?_⟩
  · obtain ⟨found, looks, same⟩ := leads reference member
    rw [looks, same handle link]
  · rw [← Tree.fst_references] at named
    obtain ⟨reference, member, rfl⟩ := List.mem_map.1 named
    obtain ⟨found, looks, -⟩ := leads reference member
    rw [looks]
    rfl

/-- What compiling enters is called. -/
theorem Enters.calls {source target : Handle} (enters : state.Enters source target) :
    state.Calls source target := by
  obtain ⟨stored, found, reference, visited, leads⟩ := enters
  exact ⟨stored, found, reference, Tree.mem_references_of_mem_visits visited, leads⟩

/-- In a well-formed state, a name in use leads to a collection. -/
theorem WellFormed.isSome_get? (wellFormed : state.WellFormed) {address : Address}
    (used : (state.lookup address).isSome) : (state.get? address).isSome := by
  obtain ⟨handle, leads⟩ := Option.isSome_iff_exists.1 used
  rw [get?, leads, Option.bind_some]
  exact wellFormed.occupied leads

/-- In a well-formed state without dangling references, every collection is solid. -/
theorem WellFormed.solid (wellFormed : state.WellFormed) (closed : state.Closed) {handle : Handle}
    (found : state.resolve handle = some tree) : state.Solid tree := by
  have stored := content_of_resolve found
  refine solid_of_references ((Tree.validate_shape tree).1 (wellFormed.valid stored))
    (wellFormed.linked found) fun address member => ?_
  exact wellFormed.isSome_get? (closed handle tree.shape stored address (by simpa using member))

/-- Let the collections of a well-formed state, which keep the rules of their kinds and are linked to
what they name, name collections and not run in cycles.  Then every tree that passes the checks compiles,
on every request. -/
theorem exists_compile_of_validate (wellFormed : state.WellFormed) (closed : state.Closed)
    (acyclic : state.Acyclic) (accepted : state.validate tree none = .ok ()) (defaultBase : String)
    (params : QueryParams) : ∃ query, state.compile defaultBase tree params = .ok query := by
  obtain ⟨keeps, follows, named⟩ := linked_of_validate accepted
  obtain ⟨peeled, peels⟩ := Tree.exists_peel keeps
  rw [State.compile_eq peels]
  cases lowers : state.predicate tree { defaultBase } with
  | ok result => exact ⟨_, rfl⟩
  | error error =>
      have solid : state.Solid tree := solid_of_references keeps follows fun address member =>
        wellFormed.isSome_get? (named address member)
      have stored : ∀ {handle tree}, state.resolve handle = some tree → state.Solid tree :=
        fun found => wellFormed.solid closed found
      obtain ⟨handle, -, cycle⟩ := runsInCircles_of_fails ⟨_, lowers⟩ (.inr ⟨solid, stored⟩)
      exact absurd (Relation.TransGen.mono (fun _ _ => Enters.calls) _ _ cycle) (acyclic handle)

/-- A reference to a collection that refers to another one. -/
theorem exists_compile_of_validate_again :
    let tree : Node := .reference ⟨9, none⟩ "Again" Namespace.collections.name
    Sample.both.WellFormed ∧ Sample.both.Closed ∧ Sample.both.Acyclic ∧
      Sample.both.validate tree none = .ok () ∧
      ∃ query, Sample.both.compile "url" tree { order := ["-title"] } = .ok query := by
  intro tree
  have saved : (({} : State).apply (.save ⟨.collections, "First"⟩ Sample.first) 0).1 =
      .ok Sample.one := rfl
  have savedAgain : (Sample.one.apply (.save ⟨.collections, "Again"⟩ Sample.again) 0).1 =
      .ok Sample.both := Sample.save_again
  have wellFormed : Sample.both.WellFormed := (WellFormed.empty.apply saved).apply savedAgain
  obtain ⟨acyclic, closed⟩ := Sample.acyclic_both
  have accepted : Sample.both.validate tree none = .ok () := rfl
  exact ⟨wellFormed, closed, acyclic, accepted,
    exists_compile_of_validate wellFormed closed acyclic accepted "url" _⟩

end Medley.State
