import Medley.Proofs.Meaning.Drawing
import Medley.Proofs.References.Cycles
import Medley.Proofs.Meaning.Unfolding
import Medley.Registry.Queries

/-!
# Asking for stored collections

A stored collection is asked for as a tree without links, so what it is compiled to depends on names
and contents alone: it passes the checks if its references name stored collections, and where there
are no cycles its predicate is that of its shape.  A media library in memory gives the same rows for
queries whose predicates are true of the same media.
-/

namespace Medley

open Compiling

namespace State

variable {state : State} {address : Address} {handle : Handle} {tree : Node}

/-- Without an address to save at, a tree is valid if it passes the check of its references. -/
theorem validate_none :
    state.validate tree none = .ok () ↔
      tree.check (fun mark => state.checkReference none mark.link) = .ok () := by
  unfold State.validate
  rw [Except.unit_bind_eq_ok]
  exact and_iff_left rfl

/-- A tree without links passes the checks if it keeps the rules of its kinds and names stored
collections. -/
theorem validate_unbound :
    state.validate tree.unbound none = .ok () ↔
      tree.validate = .ok () ∧ ∀ address ∈ tree.addresses, (state.lookup address).isSome := by
  have passes : ∀ address, state.checkReference none none address = .ok () ↔
      (state.lookup address).isSome := by
    intro address
    unfold checkReference
    cases state.lookup address <;> simp [fail]
  rw [validate_none, Tree.check_eq_ok_iff, Tree.references_unbound]
  refine and_congr ?_ ?_
  · rw [← Tree.validate_shape, Tree.shape_unbound, Tree.validate_shape]
  · simp [passes]

theorem WellFormed.validate_unbound_of_resolve (wellFormed : state.WellFormed)
    (stored : state.resolve handle = some tree) : tree.unbound.validate = .ok () := by
  rw [← Tree.validate_shape, Tree.shape_unbound]
  exact wellFormed.valid (content_of_resolve stored)

theorem content_unbound (stored : state.resolve handle = some tree) :
    state.content handle = some tree.unbound.shape := by
  rw [Tree.shape_unbound]
  exact content_of_resolve stored

section Acyclic

variable (wellFormed : state.WellFormed) (acyclic : state.Acyclic)

include wellFormed acyclic

/-- Without cycles, a name stands for the predicate of the collection that it leads to. -/
theorem WellFormed.byName_eq (leads : state.lookup address = some handle)
    (stored : state.resolve handle = some tree) :
    state.byName address = lower (fun _ => state.byName) tree := by
  have rules := (Tree.validate_shape tree).1 (wellFormed.valid (content_of_resolve stored))
  rw [← wellFormed.predicate_eq acyclic rules (wellFormed.linked stored)]
  rw [byName, get?, leads, Option.bind_some, stored]

/-- Two names stand for related predicates if the collections do that they lead to. -/
theorem WellFormed.agrees_byName {related : Predicate → Predicate → Prop} {lenient : Prop}
    {after : State} (afterwards : after.WellFormed) (acyclicAfter : after.Acyclic) {other : Address}
    (leads : state.lookup address = some handle) (leads' : after.lookup other = some handle)
    (alike : ∀ {tree tree' : Node}, state.content handle = some tree.shape →
      after.content handle = some tree'.shape →
      Agrees related lenient (lower (fun _ => state.byName) tree)
        (lower (fun _ => after.byName) tree')) :
    Agrees related lenient (state.byName address) (after.byName other) := by
  obtain ⟨tree, was⟩ := Option.isSome_iff_exists.1 (wellFormed.occupied leads)
  obtain ⟨tree', is⟩ := Option.isSome_iff_exists.1 (afterwards.occupied leads')
  rw [wellFormed.byName_eq acyclic leads was, afterwards.byName_eq acyclicAfter leads' is]
  exact alike (content_of_resolve was) (content_of_resolve is)

/-- Without cycles, a stored collection is compiled from what it is lowered to. -/
theorem WellFormed.compile_unbound (stored : state.resolve handle = some tree) {peeled : Peeled}
    (peels : tree.unbound.peel = .ok peeled) (defaultBase : String) (params : QueryParams) :
    state.compile defaultBase tree.unbound params =
      (lower (fun _ => state.byName) tree.unbound { defaultBase }).map fun result =>
        CompiledQuery.assemble params peeled result.1 result.2 := by
  have valid := wellFormed.validate_unbound_of_resolve stored
  rw [compile_eq peels, wellFormed.predicate_eq acyclic valid (Tree.linked_unbound _ tree)]

end Acyclic

/-- Two states whose collections say the same and whose references lead to the same. -/
structure Matches (state after : State) : Prop where
  contents : ∀ handle, after.content handle = state.content handle
  lookups : ∀ {handle shape}, state.content handle = some shape → ∀ address ∈ shape.addresses,
    after.lookup address = state.lookup address

namespace Matches

variable {after : State} (same : state.Matches after)

include same

theorem closed (closed : state.Closed) : after.Closed := by
  intro handle shape stored address member
  rw [same.contents] at stored
  rw [same.lookups stored address member]
  exact closed handle shape stored address member

variable (wellFormed : state.WellFormed)
  (afterwards : after.WellFormed)

include wellFormed afterwards

theorem acyclic (acyclic : state.Acyclic) : after.Acyclic := by
  have calls : ∀ source target, after.Calls source target → state.Calls source target := by
    intro source target call
    obtain ⟨shape, stored, address, member, leads⟩ := afterwards.calls_iff.1 call
    rw [same.contents] at stored
    rw [same.lookups stored address member] at leads
    exact wellFormed.calls_iff.2 ⟨shape, stored, address, member, leads⟩
  exact fun handle cycle => acyclic handle (Relation.TransGen.mono calls _ _ cycle)

variable (acyclic : state.Acyclic)

include acyclic

theorem lower_eq (source : Handle) : ∀ {node node' : Node},
    state.content source = some node.shape → node'.shape = node.shape →
    lower (fun _ => after.byName) node' = lower (fun _ => state.byName) node := by
  have acyclicAfter := same.acyclic wellFormed afterwards acyclic
  induction source using acyclic.induction with
  | step source ih =>
      intro node node' here shapes
      have rules := (Tree.validate_shape node).1 (wellFormed.valid here)
      refine (Tree.alike_of_shape_eq Predicate.congruence_eq rules shapes
        fun address member => ?_).agrees.eq.symm
      have names := same.lookups here address (by rwa [Tree.addresses_shape])
      cases leads : state.lookup address with
      | none =>
          rw [leads] at names
          rw [byName, byName, get?, get?, names, leads]
          exact .refl
      | some goal =>
          rw [leads] at names
          have call : state.Calls source goal := wellFormed.calls_of_mem here member leads
          apply wellFormed.agrees_byName acyclic afterwards acyclicAfter leads names
          intro before now was is
          rw [same.contents, was, Option.some.injEq] at is
          exact ih goal call was is.symm ▸ .refl

/-- A stored collection is compiled to the same in both states. -/
theorem compile_eq {tree' : Node} (stored : state.resolve handle = some tree)
    (stored' : after.resolve handle = some tree') (defaultBase : String) (params : QueryParams) :
    after.compile defaultBase tree'.unbound params =
      state.compile defaultBase tree.unbound params := by
  have acyclicAfter := same.acyclic wellFormed afterwards acyclic
  have content := content_unbound stored
  have shapes := content_unbound stored'
  rw [same.contents, content, Option.some.injEq] at shapes
  obtain ⟨peeled, peels⟩ := Tree.exists_peel (wellFormed.validate_unbound_of_resolve stored)
  obtain ⟨root, peels'⟩ := Tree.peel_of_shape_eq shapes.symm peels
  rw [wellFormed.compile_unbound acyclic stored peels,
    afterwards.compile_unbound acyclicAfter stored' peels',
    same.lower_eq wellFormed afterwards acyclic handle content shapes.symm]
  rfl

end Matches

end State

namespace Registry

variable {σ : Type} {registry : Registry σ} {address : Address} {tree : Node}

/-- What is got from a registry is a stored collection without links. -/
theorem get_eq_ok :
    registry.get address = .ok tree ↔ ∃ handle stored, registry.state.lookup address = some handle ∧
      registry.state.resolve handle = some stored ∧ stored.unbound = tree := by
  unfold get State.get?
  cases registry.state.lookup address with
  | none => simp [Address.notFound, fail]
  | some handle =>
      rw [Option.bind_some]
      cases stored : registry.state.resolve handle <;> simp [stored, Address.notFound, fail]

theorem compile_eq_ok {params : QueryParams} {query : CompiledQuery} :
    registry.compile tree params = .ok query ↔
      registry.state.validate tree none = .ok () ∧
        registry.state.compile registry.config.defaultBaseField tree params = .ok query :=
  Except.unit_bind_eq_ok

/-- Where all references resolve, stored collections pass the checks. -/
theorem compile_eq_of_closed (wellFormed : registry.state.WellFormed)
    (closed : registry.state.Closed) {handle : Handle}
    (stored : registry.state.resolve handle = some tree) (params : QueryParams) :
    registry.compile tree.unbound params =
      registry.state.compile registry.config.defaultBaseField tree.unbound params := by
  have content := State.content_of_resolve stored
  have passes : registry.validate tree.unbound none = .ok () :=
    State.validate_unbound.2 ⟨(Tree.validate_shape tree).1 (wellFormed.valid content),
      fun address member => closed handle tree.shape content address (by simpa using member)⟩
  rw [compile, passes]
  rfl

theorem query_eq_ok {draw : Draw} {params : QueryParams} {rows : List Row} :
    registry.query draw tree params = .ok rows ↔
      ∃ compiled, registry.compile tree params = .ok compiled ∧
        registry.library.execute draw compiled = .ok rows :=
  Except.bind_eq_ok

end Registry

namespace MemoryLibrary

/-- Only what a predicate is true of matters for the rows. -/
theorem execute_congr (library : MemoryLibrary) {query : CompiledQuery} {predicate : Predicate}
    (same : Predicate.Equivalent query.predicate predicate) (conditions : String) (draw : Draw) :
    library.execute draw { query with predicate, conditions } = library.execute draw query := by
  have selects : CompiledQuery.selects { query with predicate, conditions } = query.selects := by
    funext medium
    simp only [CompiledQuery.selects, same medium]
    rfl
  unfold execute CompiledQuery.find
  rw [selects]
  rfl

end MemoryLibrary

/-! ## A collection and a reference to it -/

namespace Sample

/-- The first medium of the library. -/
def first : Node :=
  .node ⟨0, none⟩ { kind := .limit, attributes := .ofList [(Key.length, "1")] }
    [.leaf ⟨1, none⟩ { kind := .universe }]

/-- A reference to it. -/
def again : Node := Tree.reference ⟨2, none⟩ "First" Namespace.collections.name

/-- A library of two media. -/
def media : MemoryLibrary :=
  .ofList [(1, .ofList [("url", .text "one")]), (2, .ofList [("url", .text "two")])]

/-- A draw that turns media around. -/
def turned : Draw := ⟨List.reverse, List.reverse_perm⟩

/-- The requests to save the two collections. -/
def requests : List Request :=
  [.save ⟨.collections, "First"⟩ first, .save ⟨.collections, "Again"⟩ again]

/-- The stored collections after the first request. -/
def one : State := { slots := [some first], collections := .ofList [("First", ⟨0⟩)] }

/-- The stored collections after both. -/
def both : State where
  slots := [some first, some (again.bound one.lookup)]
  collections := .ofList [("Again", ⟨1⟩), ("First", ⟨0⟩)]

theorem save_again : one.save ⟨.collections, "Again"⟩ again = .ok both := by
  have nothing : one.reachesFrom (one.saveTarget ⟨.collections, "Again"⟩) [⟨0⟩] [] = false := by
    rw [State.reachesFrom]
  have passes : one.validate again (some ⟨.collections, "Again"⟩) = .ok () := by
    refine Except.unit_bind_eq_ok.2 ⟨(Tree.check_eq_ok_iff _ _).2 ⟨rfl, ?_⟩, rfl⟩
    intro reference member
    obtain rfl : reference = (⟨.collections, "First"⟩, none) := List.mem_singleton.1 member
    exact if_neg fun reaches => Bool.false_ne_true (nothing.symm.trans reaches)
  rw [State.save, passes]
  rfl

theorem acyclic_both : both.Acyclic ∧ both.Closed := by
  have empty := State.WellFormed.empty
  have saved : (({} : State).apply (.save ⟨.collections, "First"⟩ first) 0).1 = .ok one := rfl
  have savedAgain : (one.apply (.save ⟨.collections, "Again"⟩ again) 0).1 = .ok both := save_again
  have stepOne := empty.acyclic_apply State.acyclic_empty State.closed_empty saved
  have alone : one.Acyclic := by
    refine stepOne.1.2 ?_
    rintro ⟨_, shares, -⟩
    cases shares
  have stepBoth := (empty.apply saved).acyclic_apply alone stepOne.2 savedAgain
  refine ⟨stepBoth.1.2 ?_, stepBoth.2⟩
  rintro ⟨_, shares, -⟩
  cases shares

/-- Where nothing is kept, the requests lead to the two collections. -/
theorem serveAll_requests (library : MediaLibrary) :
    (({ library, store := {} } : Registry NoStore).serveAll requests).state = both := by
  let start : Registry NoStore := { library, store := {} }
  let single := start.serve (.save ⟨.collections, "First"⟩ first)
  have stateSingle : single.state = one := (start.serve_of_apply rfl rfl).2
  have saved : (single.state.apply (.save ⟨.collections, "Again"⟩ again) single.nextIdentity).1 =
      .ok both := by
    rw [stateSingle]
    exact save_again
  exact (single.serve_of_apply rfl saved).2

end Sample

end Medley
