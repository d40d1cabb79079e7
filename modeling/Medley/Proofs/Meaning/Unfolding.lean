import Medley.Proofs.Meaning.Lowering
import Medley.Proofs.References.Chains

/-!
# Predicates where no references run in cycles

Compiling follows references a limited number of times and refuses to enter a collection twice.  Where
no references run in cycles neither shows: the predicate of a tree is what it is lowered to when every
reference stands for the predicate of the collection that it names (`State.WellFormed.predicate_eq`).
Proofs about such states go by induction along references (`State.Acyclic.induction`).
-/

namespace Medley.State

open Compiling

variable {state : State} {address : Address} {handle source target : Handle} {tree : Node}

/-- The predicate of the collection that a name leads to, if no more than some references are
followed and none of some collections is entered. -/
def enter (state : State) (budget : Nat) (visiting : List Handle) (address : Address) :
    Compiling Predicate :=
  match state.lookup address with
  | none => throw { cause := .danglingReference address.name address.space.name }
  | some handle =>
      if handle ∈ visiting then throw { cause := .cyclicReference address.name address.space.name }
      else match state.resolve handle with
        | none => throw { cause := .danglingReference address.name address.space.name }
        | some target => state.predicateWithin budget (handle :: visiting) target

/-- The predicate of the collection that a name leads to. -/
def byName (state : State) (address : Address) : Compiling Predicate :=
  match state.get? address with
  | none => throw { cause := .danglingReference address.name address.space.name }
  | some target => state.predicate target

/-- With links that follow from names, only names matter. -/
theorem predicateWithin_succ {budget : Nat} {visiting : List Handle} (valid : tree.validate = .ok ())
    (linked : tree.Linked state.lookup) :
    state.predicateWithin (budget + 1) visiting tree =
      lower (fun _ => state.enter budget visiting) tree := by
  refine Tree.lower_eq_of_references valid fun reference member => ?_
  rw [follow_eq_lookup (linked reference member)]
  rfl

/-- Every collection from which no cycle is reached is reached from above: to prove something of all
collections, prove it of one from what it leads to. -/
theorem Acyclic.induction (acyclic : state.Acyclic) {motive : Handle → Prop}
    (step : ∀ source, (∀ target, state.Calls source target → motive target) → motive source)
    (handle : Handle) : motive handle := by
  -- A path enters every slot once, so what is not yet on it decreases.
  suffices along : ∀ (left : Nat) (path : List Handle) (handle : Handle),
      (state.unvisited path).length ≤ left →
      (∀ earlier ∈ path, Relation.TransGen state.Calls earlier handle) → motive handle from
    along _ [] handle (Nat.le_refl _) fun _ member => nomatch member
  intro left
  induction left with
  | zero =>
      intro path handle enough before
      refine step handle fun target call => absurd enough ?_
      obtain ⟨tree, stored, -⟩ := call
      have isNew : handle ∉ path := fun member => acyclic handle (before handle member)
      have smaller := unvisited_cons_lt isNew (by rw [stored]; rfl)
      omega
  | succ left ih =>
      intro path handle enough before
      refine step handle fun target call => ih (handle :: path) target ?_ ?_
      · obtain ⟨tree, stored, -⟩ := call
        have isNew : handle ∉ path := fun member => acyclic handle (before handle member)
        have smaller := unvisited_cons_lt isNew (by rw [stored]; rfl)
        omega
      · intro earlier member
        rcases List.mem_cons.1 member with rfl | member
        · exact .single call
        · exact (before earlier member).tail call

section Acyclic

variable (wellFormed : state.WellFormed) (acyclic : state.Acyclic)

/-- Whether a tree leads to none of the collections that are being compiled. -/
def Avoids (state : State) (visiting : List Handle) (tree : Node) : Prop :=
  ∀ address ∈ tree.addresses, ∀ handle, state.lookup address = some handle →
    ∀ entered ∈ visiting, ¬ Relation.ReflTransGen state.Calls handle entered

include wellFormed acyclic

theorem WellFormed.avoids_cons {visiting : List Handle} {node : Node}
    (avoids : state.Avoids visiting tree) (member : address ∈ tree.addresses)
    (leads : state.lookup address = some handle) (stored : state.resolve handle = some node) :
    state.Avoids (handle :: visiting) node := by
  intro other inside next further entered visited path
  have call : state.Calls handle next :=
    wellFormed.calls_of_mem (content_of_resolve stored) inside further
  rcases List.mem_cons.1 visited with rfl | visited
  · exact acyclic _ (Relation.TransGen.head' call path)
  · exact avoids address member handle leads entered visited (.head call path)

/-- Neither the budget nor the collections being compiled matter, if there is enough of the one and
none of the others is met. -/
theorem WellFormed.predicateWithin_eq {budget budget' : Nat} {visiting visiting' : List Handle}
    (valid : tree.validate = .ok ()) (linked : tree.Linked state.lookup)
    (enough : (state.unvisited visiting).length < budget)
    (enough' : (state.unvisited visiting').length < budget')
    (avoids : state.Avoids visiting tree) (avoids' : state.Avoids visiting' tree) :
    state.predicateWithin budget visiting tree = state.predicateWithin budget' visiting' tree := by
  induction budget generalizing budget' visiting visiting' tree with
  | zero => omega
  | succ budget ih =>
      obtain _ | budget' := budget'
      · omega
      rw [predicateWithin_succ valid linked, predicateWithin_succ valid linked]
      refine (Tree.alike_of_shape_eq Predicate.congruence_eq valid rfl
        fun address member => ?_).agrees.eq
      suffices same : state.enter budget visiting address = state.enter budget' visiting' address from
        same ▸ .refl
      unfold enter
      cases leads : state.lookup address with
      | none => rfl
      | some handle =>
          have isNew : handle ∉ visiting := fun visited =>
            avoids address member handle leads handle visited .refl
          have isNew' : handle ∉ visiting' := fun visited =>
            avoids' address member handle leads handle visited .refl
          simp only [if_neg isNew, if_neg isNew']
          cases stored : state.resolve handle with
          | none => rfl
          | some node =>
              have occupied : (state.resolve handle).isSome := by rw [stored]; rfl
              have smaller := unvisited_cons_lt isNew occupied
              have smaller' := unvisited_cons_lt isNew' occupied
              have rules := wellFormed.valid (content_of_resolve stored)
              exact ih ((Tree.validate_shape node).1 rules) (wellFormed.linked stored) (by omega)
                (by omega) (wellFormed.avoids_cons acyclic avoids member leads stored)
                (wellFormed.avoids_cons acyclic avoids' member leads stored)

/-- Without cycles, every reference stands for the predicate of what it names. -/
theorem WellFormed.predicate_eq (valid : tree.validate = .ok ())
    (linked : tree.Linked state.lookup) :
    state.predicate tree = lower (fun _ => state.byName) tree := by
  have fits : (state.unvisited []).length ≤ state.slots.length := state.length_unvisited_le []
  rw [predicate, predicateWithin_succ valid linked]
  refine (Tree.alike_of_shape_eq Predicate.congruence_eq valid rfl
    fun address member => ?_).agrees.eq
  suffices same : state.enter state.slots.length [] address = state.byName address from same ▸ .refl
  unfold enter byName get?
  cases leads : state.lookup address with
  | none => rfl
  | some handle =>
      simp only [List.not_mem_nil, if_false, Option.bind_some]
      cases stored : state.resolve handle with
      | none => rfl
      | some node =>
          have occupied : (state.resolve handle).isSome := by rw [stored]; rfl
          have smaller := unvisited_cons_lt List.not_mem_nil occupied
          have rules := wellFormed.valid (content_of_resolve stored)
          have none : ∀ tree, state.Avoids [] tree := fun _ _ _ _ _ _ entered => nomatch entered
          exact wellFormed.predicateWithin_eq acyclic ((Tree.validate_shape node).1 rules)
            (wellFormed.linked stored) (by omega) (by omega)
            (wellFormed.avoids_cons acyclic (none tree) member leads stored) (none node)

end Acyclic

end Medley.State
