import Medley.Proofs.Meaning.Asking
import Medley.Proofs.Registry.Restoring
import Medley.Store.Memory

/-!
# Saving over a name with aliases

A save puts a tree in place of one collection: that with the identity of the tree if the namespace has
such a collection, and else that of the name.  All names of this collection, and the name itself, share
the tree afterwards.  So the other names of the collection that the name had before come along unless
the tree has the identity of another collection: then they are left behind with what they had
(`Registry.save_over_aliases`).
-/

namespace Medley

namespace State

variable {state after : State} {address other : Address} {tree : Node} {handle : Handle} {shape : Shape}

/-- Two addresses lead to one collection. -/
def SharesTree (state : State) (left right : Address) : Prop :=
  ∃ handle, state.lookup left = some handle ∧ state.lookup right = some handle

/-- What two names shared before a save they share afterwards, or the one not saved is left behind with
what it had. -/
theorem WellFormed.save_aliases (wellFormed : state.WellFormed)
    (saved : state.save address tree = .ok after) (shares : state.SharesTree other address) :
    ∃ handle, state.Redirects after handle tree.shape ∧ after.lookup address = some handle ∧
      (after.lookup other = some handle ↔ other = address ∨
        ∀ shared, state.sharing address.space tree.identity = some shared →
          state.lookup address = some shared) ∧
      (after.lookup other ≠ some handle → after.lookup other = state.lookup other) := by
  obtain ⟨old, leads, named⟩ := shares
  obtain ⟨-, handle, redirects, lookups⟩ := wellFormed.save saved
  refine ⟨handle, redirects, (lookups address).2 (.inl rfl), (lookups other).trans (or_congr_right ?_),
    fun left => (redirects.lookup other).resolve_right left⟩
  rw [displaced, leads, named]
  cases state.sharing address.space tree.identity with
  | none => simp
  | some shared => simp

end State

namespace Registry

variable {σ : Type}

/-- What is got is a tree of the shape that is stored. -/
theorem exists_get_of_content {registry : Registry σ} {address : Address} {handle : Handle}
    {shape : Shape} (leads : registry.state.lookup address = some handle)
    (stored : registry.state.content handle = some shape) :
    ∃ got, registry.get address = .ok got ∧ got.shape = shape := by
  obtain ⟨node, found, same⟩ := State.exists_of_content stored
  exact ⟨node.unbound, get_eq_ok.2 ⟨handle, node, leads, found, rfl⟩,
    (Tree.shape_unbound node).trans same⟩

variable [RecordStore σ]

/-- After a save over a stored name, the names that shared a collection with it share the saved tree,
unless the tree has the identity of another collection in the namespace: then they keep what they
had. -/
theorem save_over_aliases (config : Config) (library : MediaLibrary) (store : σ) (nextIdentity : Nat)
    (operations : List (Operation σ)) (address : Address) (tree : Node) :
    let start : Registry σ := { config, library, store, nextIdentity }
    let registry := start.performAll operations
    let after := registry.serve (.save address tree)
    registry.Accepts (.save address tree) →
      ∀ other, registry.state.SharesTree other address →
        (after.state.SharesTree other address ↔ other = address ∨
          ∀ shared, registry.state.sharing address.space tree.identity = some shared →
            registry.state.lookup address = some shared) ∧
        (after.state.SharesTree other address →
          ∃ got, after.get other = .ok got ∧ got.sameShape tree = true) ∧
        (¬ after.state.SharesTree other address →
          ∃ before got, registry.get other = .ok before ∧ after.get other = .ok got ∧
            got.sameShape before = true) := by
  intro start registry after accepted other shares
  have wellFormed : registry.state.WellFormed := wellFormed_performAll .empty operations
  obtain ⟨next, saved, -, same⟩ :=
    (registry.serve_cases (.save address tree)).resolve_right fun refused => refused.1 accepted
  obtain ⟨handle, redirects, leads, moves, stays⟩ := wellFormed.save_aliases saved shares
  rw [← same] at redirects leads moves stays
  have shared : after.state.SharesTree other address ↔ after.state.lookup other = some handle := by
    constructor
    · rintro ⟨found, leadsOther, leadsHere⟩
      exact leadsOther.trans (leadsHere.symm.trans leads)
    · exact fun leadsOther => ⟨handle, leadsOther, leads⟩
  rw [shared]
  refine ⟨moves, fun leadsOther => ?_, fun left => ?_⟩
  · obtain ⟨got, gets, shape⟩ := exists_get_of_content leadsOther redirects.placed
    exact ⟨got, gets, Tree.sameShape_eq_true.2 shape⟩
  · obtain ⟨old, was, -⟩ := shares
    have is : after.state.lookup other = some old := (stays left).trans was
    obtain ⟨shape, stored⟩ := Option.isSome_iff_exists.1 (redirects.wellFormed.named is)
    have different : old ≠ handle := fun equal => left (equal ▸ is)
    obtain ⟨before, gotBefore, shapeBefore⟩ := exists_get_of_content was (redirects.kept different stored)
    obtain ⟨got, gets, shapeAfter⟩ := exists_get_of_content is stored
    exact ⟨before, got, gotBefore, gets, Tree.sameShape_eq_true.2 (shapeAfter.trans shapeBefore.symm)⟩

/-- A list is saved under a name that has an alias, but with the identity of a third collection: the
alias keeps the list that both had. -/
theorem save_over_aliases_left_behind :
    let start : Registry MemoryStore := { store := {} }
    let list (identity : Nat) (id : Int64) : Node :=
      .leaf ⟨identity, none⟩ { kind := .list .list, ids := [id] }
    let operations : List (Operation MemoryStore) :=
      [.serve (.save ⟨.collections, "A"⟩ (list 0 1)), .serve (.save ⟨.collections, "B"⟩ (list 0 1)),
        .serve (.save ⟨.collections, "C"⟩ (list 1 2))]
    let registry := start.performAll operations
    let request : Request := .save ⟨.collections, "A"⟩ (list 1 2)
    let after := registry.serve request
    registry.Accepts request ∧ registry.state.SharesTree ⟨.collections, "B"⟩ ⟨.collections, "A"⟩ ∧
      ¬ after.state.SharesTree ⟨.collections, "B"⟩ ⟨.collections, "A"⟩ ∧
      ∃ got, after.get ⟨.collections, "B"⟩ = .ok got ∧ got.sameShape (list 0 1) = true := by
  intro start list operations registry request after
  have accepted : registry.Accepts request := by
    unfold Accepts
    subst request registry operations list start
    decide +kernel
  have shares : registry.state.SharesTree ⟨.collections, "B"⟩ ⟨.collections, "A"⟩ := by
    subst registry operations list start
    exact ⟨⟨0⟩, by decide +kernel, by decide +kernel⟩
  obtain ⟨moves, -, stays⟩ := save_over_aliases {} .absent ({} : MemoryStore) 0 operations
    ⟨.collections, "A"⟩ (list 1 2) accepted ⟨.collections, "B"⟩ shares
  have apart : ¬ after.state.SharesTree ⟨.collections, "B"⟩ ⟨.collections, "A"⟩ := by
    refine fun still => (moves.1 still).elim (by decide) fun alone => ?_
    have third : registry.state.sharing .collections 1 = some ⟨1⟩ := by
      subst registry operations list start
      decide +kernel
    have other : registry.state.lookup ⟨.collections, "A"⟩ ≠ some ⟨1⟩ := by
      subst registry operations list start
      decide +kernel
    exact other (alone ⟨1⟩ third)
  obtain ⟨before, got, was, is, same⟩ := stays apart
  have held : registry.get ⟨.collections, "B"⟩ = .ok (list 0 1) := by
    subst registry operations list start
    decide +kernel
  obtain rfl := Except.ok.inj (held.symm.trans was)
  exact ⟨accepted, shares, apart, got, is, same⟩

end Registry

end Medley
