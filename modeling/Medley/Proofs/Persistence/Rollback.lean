import Medley.Proofs.Meaning.Relinking
import Medley.Proofs.Persistence.Interrupted

/-!
# Changes that fail

A change that is refused, by a check or by the store, leaves the registry as it was, but for the store
itself and the identities that were handed out on the way.  Neither shows in an answer: no answer reads
the store, and a collection on fresh nodes is checked and compiled alike whatever their identities are,
so everything is answered as before (`Registry.answers_of_refused`).
-/

namespace Medley

open Compiling

namespace State

variable {state : State} {tree tree' : Node}

section Linkless

variable (same : tree'.shape = tree.shape) (linkless : ∀ node ∈ tree.nodes, node.link = none)
  (linkless' : ∀ node ∈ tree'.nodes, node.link = none)

include same linkless linkless'

/-- Trees of one shape without links are checked alike. -/
theorem validate_of_linkless (saveAs : Option Address) :
    state.validate tree' saveAs = state.validate tree saveAs := by
  have checks {inner : Node} (linkless : ∀ node ∈ inner.nodes, node.link = none) :
      inner.check (fun mark => state.checkReference (saveAs.map state.saveTarget) mark.link) =
        inner.shape.check fun _ => state.checkReference (saveAs.map state.saveTarget) none :=
    Tree.check_eq_shape fun node member address _ =>
      congrArg (state.checkReference _ · address) (linkless node member)
  have kinds : tree'.kind = tree.kind := by
    rw [Tree.kind, Tree.kind, ← Tree.operator_shape, same, Tree.operator_shape]
  unfold State.validate
  rw [kinds, checks linkless', checks linkless, same]

/-- Trees of one shape without links are compiled alike. -/
theorem compile_of_linkless (defaultBase : String) (params : QueryParams) :
    state.compile defaultBase tree' params = state.compile defaultBase tree params := by
  have lowers {inner : Node} (linkless : ∀ node ∈ inner.nodes, node.link = none)
      (onReference : Option Handle → Address → Compiling Predicate) :
      lower onReference inner = lower (fun _ => onReference none) inner :=
    Tree.lower_eq_of_nodes fun node member address _ =>
      congrArg (onReference · address) (linkless node member)
  refine compile_congr same ?_ defaultBase params
  rw [predicate, predicateWithin, lowers linkless', lowers linkless, Tree.lower_of_shape_eq same]

end Linkless

end State

namespace Registry

variable {σ : Type}

/-- A collection of one medium is compiled alike whatever identities its nodes have. -/
theorem compile_membership (registry : Registry σ) (id : Int64) (address : Address) (first other : Nat)
    (params : QueryParams) :
    registry.compile (membership id address first).1 params =
      registry.compile (membership id address other).1 params := by
  have linkless (next : Nat) : ∀ node ∈ (membership id address next).1.nodes, node.link = none := by
    intro node member
    rcases List.mem_cons.1 member with rfl | member
    · rfl
    · obtain rfl := List.mem_singleton.1 member
      rfl
  have same : (membership id address first).1.shape = (membership id address other).1.shape := rfl
  rw [compile, compile, validate, validate,
    State.validate_of_linkless same (linkless other) (linkless first),
    State.compile_of_linkless same (linkless other) (linkless first)]

variable [RecordStore σ]

/-- A request that is refused changes neither the stored collections nor what is to be written, and
everything is answered as before. -/
theorem answers_of_refused (registry : Registry σ) {request : Request}
    (refused : ¬ registry.Accepts request) :
    let after := registry.serve request
    after = { registry with store := after.store, nextIdentity := after.nextIdentity } ∧
      (∀ address, after.get address = registry.get address) ∧
      (∀ space, after.list space = registry.list space) ∧
      (∀ tree saveAs, after.validate tree saveAs = registry.validate tree saveAs) ∧
      (∀ tree params, after.compile tree params = registry.compile tree params) ∧
      ∀ draws id space, after.find draws id space = registry.find draws id space := by
  rcases registry.serve_inversion request with ⟨-, -, -, -, -, accepted, -⟩ | ⟨-, store, same⟩
  · exact absurd accepted refused
  generalize (registry.state.apply request registry.nextIdentity).2 = next at same
  rw [same]
  refine ⟨rfl, fun _ => rfl, fun _ => rfl, fun _ _ => rfl, fun _ _ => rfl, fun draws id space => ?_⟩
  have compiles (tree : Node) (params : QueryParams) :
      { registry with store, nextIdentity := next }.compile tree params =
        registry.compile tree params := rfl
  simp only [find, compiles, registry.compile_membership id _ next registry.nextIdentity]
  rfl

/-- A removal that the store does not finish has written a record and copied a collection, but answers
do not tell. -/
theorem answers_of_refused_removal :
    let store : RefusingStore := { refuses := fun call => call == .setActive none }
    let registry : Registry RefusingStore :=
      { library := Sample.media.toMediaLibrary, state := Sample.both, store, nextIdentity := 3 }
    let request : Request := .remove ⟨.collections, "First"⟩
    ¬ registry.Accepts request ∧ (registry.serve request).nextIdentity ≠ registry.nextIdentity ∧
      RecordStore.list (registry.serve request).store .collections = .ok ["Again"] ∧
      (registry.serve request).state = registry.state ∧
      ∀ draws id space,
        (registry.serve request).find draws id space = registry.find draws id space := by
  intro store registry request
  have refused : ¬ registry.Accepts request := by
    unfold Accepts
    subst request registry store
    decide +kernel
  obtain ⟨kept, -, -, -, -, finds⟩ := answers_of_refused registry refused
  refine ⟨refused, ?_, ?_, by rw [kept], finds⟩
  all_goals
    subst request registry store
    decide +kernel

end Registry

end Medley
