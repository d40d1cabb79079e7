import Medley.Proofs.Meaning.Asking
import Medley.Proofs.Registry.Restoring
import Medley.Store.Memory

/-!
# Links are derived data

Checking a tree compares links with names, while a search along references and a compilation follow a
link and fall back on the name.  Where every link in a tree, and in every stored collection, is the
handle that its address leads to, all three see names and shapes alone: in two well-formed states that
differ in links (`State.Relinked`) trees of one shape get the same answers, the failures included.
-/

namespace Medley

open Compiling

namespace Tree

/-- Where the test of a reference sees no more than its address, a check sees no more than the
shape. -/
theorem check_eq_shape {α : Type} {onReference : α → Address → Except Error Unit}
    {byAddress : Address → Except Error Unit} {tree : Tree α}
    (same : ∀ node ∈ tree.nodes, ∀ address, node.operator.target? = some address →
      onReference node.mark address = byAddress address) :
    tree.check onReference = tree.shape.check fun _ => byAddress := by
  induction tree using Tree.induction with
  | node mark operator operands ih =>
      rw [nodes_node] at same
      have own : ∀ address, operator.target? = some address →
          onReference mark address = byAddress address := same _ (.head _)
      have below : forM operands (check onReference) =
          forM (operands.map shape) (check fun _ => byAddress) := by
        rw [List.forM_map]
        exact List.forM_congr fun operand member => ih operand member fun node inside =>
          same node (.tail _ (List.mem_flatMap.2 ⟨operand, member, inside⟩))
      rw [shape_node, check_eq_bind, check_eq_bind, Operator.view_map, Except.map_bind, ← below]
      cases reads : operator.view operands with
      | error error => rfl
      | ok view =>
          show (view.test _ >>= _) = ((view.map shape).test _ >>= _)
          rw [View.test_map, View.test_congr reads own]

section Faithful

/-- Whether every node that names an address is linked, if at all, to the handle stored there. -/
def Faithful (lookup : Address → Option Handle) (tree : Node) : Prop :=
  ∀ node ∈ tree.nodes, ∀ address, node.operator.target? = some address →
    ∀ handle, node.link = some handle → lookup address = some handle

variable {lookup : Address → Option Handle} {tree : Node}

theorem Faithful.linked (faithful : tree.Faithful lookup) : tree.Linked lookup := by
  intro reference member handle link
  obtain ⟨node, inside, target, same⟩ := exists_mem_nodes_of_mem_references member
  exact faithful node inside _ target handle (same.trans link)

/-- The rules of their kind leave references no operands, so all that is linked is listed. -/
theorem Linked.faithful (linked : tree.Linked lookup) (valid : tree.validate = .ok ()) :
    tree.Faithful lookup := by
  intro node member address target handle link
  have listed := mem_references_of_mem_nodes (bareReferences_of_validate valid) member
    (Operator.kind_of_target? target) target
  exact linked _ listed handle link

theorem faithful_of_linkless (linkless : ∀ node ∈ tree.nodes, node.link = none) :
    tree.Faithful lookup := by
  intro node member address target handle link
  rw [linkless node member] at link
  cases link

theorem faithful_bound (lookup : Address → Option Handle) (tree : Node) :
    (tree.bound lookup).Faithful lookup := by
  intro node member address target handle link
  rw [bound, relink, nodes_mapNodes] at member
  obtain ⟨⟨mark, operator, operands⟩, -, rfl⟩ := List.mem_map.1 member
  rw [mapNodes_node] at target link
  have target : operator.target? = some address := target
  have link : (if operator.kind = .reference then operator.target?.bind lookup else mark.link) =
      some handle := link
  rwa [if_pos (Operator.kind_of_target? target), target] at link

end Faithful

end Tree

namespace State

/-- States that differ in links alone, if at all. -/
structure Relinked (state after : State) : Prop where
  wellFormed : state.WellFormed
  wellFormedAfter : after.WellFormed
  lookup : after.lookup = state.lookup
  content : ∀ handle, after.content handle = state.content handle
  length : after.slots.length = state.slots.length

theorem WellFormed.relinked {state after : State} (wellFormed : state.WellFormed)
    (member : after ∈ [state, state.bindAll, state.unbindAll]) : state.Relinked after := by
  simp only [List.mem_cons, List.not_mem_nil, or_false] at member
  rcases member with rfl | rfl | rfl
  · exact ⟨wellFormed, wellFormed, rfl, fun _ => rfl, rfl⟩
  · exact ⟨wellFormed, wellFormed.toSound.bindAll, lookup_bindAll, fun _ => content_bindAll,
      List.length_map ..⟩
  · exact ⟨wellFormed, wellFormed.toSound.unbindAll, lookup_unbindAll, fun _ => content_unbindAll,
      List.length_map ..⟩

namespace Relinked

variable {state after : State} (relinked : state.Relinked after) {tree tree' : Node}

include relinked

theorem symm : after.Relinked state where
  wellFormed := relinked.wellFormedAfter
  wellFormedAfter := relinked.wellFormed
  lookup := relinked.lookup.symm
  content handle := (relinked.content handle).symm
  length := relinked.length.symm

/-- What a handle leads to says the same in both states, and its links are faithful. -/
theorem resolve {handle : Handle} {node : Node} (stored : state.resolve handle = some node) :
    ∃ node', after.resolve handle = some node' ∧ node'.shape = node.shape ∧
      node.Faithful state.lookup ∧ node'.Faithful state.lookup := by
  have content := relinked.content handle
  rw [content_of_resolve stored] at content
  obtain ⟨node', stored', same⟩ := exists_of_content content
  have valid := (Tree.validate_shape node).1 (relinked.wellFormed.valid (content_of_resolve stored))
  have linked' := relinked.wellFormedAfter.linked stored'
  rw [relinked.lookup] at linked'
  exact ⟨node', stored', same, (relinked.wellFormed.linked stored).faithful valid,
    linked'.faithful (Tree.validate_of_shape_eq same.symm valid)⟩

theorem resolve_eq_none {handle : Handle} (empty : state.resolve handle = none) :
    after.resolve handle = none := by
  rw [← content_eq_none] at empty ⊢
  rw [relinked.content, empty]

/-- What a reference leads to depends on its address alone. -/
theorem follow {link : Option Handle} {address : Address}
    (faithful : ∀ handle, link = some handle → state.lookup address = some handle) :
    state.follow link address = state.lookup address ∧
      after.follow link address = state.lookup address := by
  refine ⟨follow_eq_lookup faithful, ?_⟩
  rw [follow_eq_lookup (by rwa [relinked.lookup]), relinked.lookup]

section Search

theorem meets {goal : SaveTarget} {visited : List Handle}
    {references references' : List (Address × Option Handle)}
    (meets : state.Meets goal visited references)
    (addresses : references'.map Prod.fst = references.map Prod.fst)
    (linked : ∀ reference ∈ references, ∀ handle, reference.2 = some handle →
      state.lookup reference.1 = some handle)
    (linked' : ∀ reference ∈ references', ∀ handle, reference.2 = some handle →
      state.lookup reference.1 = some handle) : after.Meets goal visited references' := by
  have beside : ∀ {references references' : List (Address × Option Handle)} {reference},
      reference ∈ references → references'.map Prod.fst = references.map Prod.fst →
      ∃ reference' ∈ references', reference'.1 = reference.1 := by
    intro references references' reference member addresses
    have listed := List.mem_map_of_mem (f := Prod.fst) member
    rw [← addresses] at listed
    exact List.mem_map.1 listed
  induction meets generalizing references' with
  | @here references reference member meant =>
      obtain ⟨⟨address, link⟩, inside, rfl⟩ := beside member addresses
      refine .here inside ?_
      rw [(relinked.follow (linked _ member)).1] at meant
      rwa [(relinked.follow (linked' _ inside)).2]
  | @there references reference handle node member leads isNew stored further ih =>
      obtain ⟨⟨address, link⟩, inside, rfl⟩ := beside member addresses
      obtain ⟨node', stored', same, faithful, faithful'⟩ := relinked.resolve stored
      rw [(relinked.follow (linked _ member)).1] at leads
      refine .there inside ((relinked.follow (linked' _ inside)).2.trans leads) isNew stored' ?_
      refine ih ?_ faithful.linked faithful'.linked
      rw [Tree.fst_references, Tree.fst_references, ← Tree.addresses_shape, same, Tree.addresses_shape]

/-- A search for a target finds it in both states, whatever of the references is linked. -/
theorem reachesFrom_eq {goal : SaveTarget} {visited : List Handle} (same : tree'.shape = tree.shape)
    (faithful : tree.Faithful state.lookup) (faithful' : tree'.Faithful state.lookup) :
    after.reachesFrom goal visited tree'.references = state.reachesFrom goal visited tree.references := by
  have addresses : tree'.references.map Prod.fst = tree.references.map Prod.fst := by
    rw [Tree.fst_references, Tree.fst_references, ← Tree.addresses_shape, same, Tree.addresses_shape]
  have back := relinked.symm
  rw [Bool.eq_iff_iff, reachesFrom_eq_true, reachesFrom_eq_true]
  constructor
  · intro meets
    refine back.meets meets addresses.symm ?_ ?_ <;> rw [relinked.lookup]
    · exact faithful'.linked
    · exact faithful.linked
  · exact fun meets => relinked.meets meets addresses faithful.linked faithful'.linked

theorem saveTarget (address : Address) : after.saveTarget address = state.saveTarget address := by
  rw [State.saveTarget, State.saveTarget, relinked.lookup]

/-- Whether a tree leads to an address does not depend on links. -/
theorem reaches_eq (same : tree'.shape = tree.shape) (faithful : tree.Faithful state.lookup)
    (faithful' : tree'.Faithful state.lookup) (address : Address) :
    after.reaches tree' address = state.reaches tree address := by
  rw [State.reaches, State.reaches, relinked.saveTarget]
  exact relinked.reachesFrom_eq same faithful faithful'

end Search

section Validity

/-- Links that are faithful pass wherever references without links do, in both states. -/
theorem checkReference_eq {link : Option Handle} {address : Address}
    (faithful : ∀ handle, link = some handle → state.lookup address = some handle)
    (target : Option SaveTarget) :
    after.checkReference target link address = state.checkReference target none address := by
  unfold checkReference
  rw [relinked.lookup]
  cases leads : state.lookup address with
  | none => rfl
  | some handle =>
      have agrees : link.any (· != handle) = false := by
        cases link with
        | none => rfl
        | some linked =>
            obtain rfl := Option.some.inj ((faithful linked rfl).symm.trans leads)
            simp
      simp only [agrees, Option.any_none]
      cases stored : state.resolve handle with
      | none => rw [relinked.resolve_eq_none stored]
      | some node =>
          obtain ⟨node', stored', same, faithful, faithful'⟩ := relinked.resolve stored
          cases target with
          | none => rfl
          | some target => simp only [stored', relinked.reachesFrom_eq same faithful faithful']

theorem validate_eq (same : tree'.shape = tree.shape) (faithful : tree.Faithful state.lookup)
    (faithful' : tree'.Faithful state.lookup) (saveAs : Option Address) :
    after.validate tree' saveAs = state.validate tree saveAs := by
  have own : state.Relinked state :=
    ⟨relinked.wellFormed, relinked.wellFormed, rfl, fun _ => rfl, rfl⟩
  have kinds : tree'.kind = tree.kind := by
    rw [Tree.kind, Tree.kind, ← Tree.operator_shape, same, Tree.operator_shape]
  have targets : saveAs.map after.saveTarget = saveAs.map state.saveTarget :=
    congrArg (Option.map · saveAs) (funext relinked.saveTarget)
  have checks : ∀ {some : State} {inner : Node}, state.Relinked some → inner.Faithful state.lookup →
      inner.check (fun mark => some.checkReference (saveAs.map state.saveTarget) mark.link) =
        inner.shape.check fun _ => state.checkReference (saveAs.map state.saveTarget) none :=
    fun relinked faithful => Tree.check_eq_shape fun node member address target =>
      relinked.checkReference_eq (faithful node member address target) _
  unfold State.validate
  rw [targets, kinds, checks relinked faithful', checks own faithful, same]

end Validity

section Compilation

theorem enter_eq {budget : Nat} {visiting : List Handle}
    (within : ∀ {node node' : Node} {visiting : List Handle}, node'.shape = node.shape →
      node.Faithful state.lookup → node'.Faithful state.lookup →
      after.predicateWithin budget visiting node' = state.predicateWithin budget visiting node)
    (address : Address) : after.enter budget visiting address = state.enter budget visiting address := by
  unfold enter
  rw [relinked.lookup]
  cases state.lookup address with
  | none => rfl
  | some handle =>
      by_cases visited : handle ∈ visiting
      · simp only [if_pos visited]
      simp only [if_neg visited]
      cases stored : state.resolve handle with
      | none => rw [relinked.resolve_eq_none stored]
      | some node =>
          obtain ⟨node', stored', same, faithful, faithful'⟩ := relinked.resolve stored
          simp only [stored', within same faithful faithful']

theorem predicateWithin_eq (budget : Nat) {visiting : List Handle} (same : tree'.shape = tree.shape)
    (faithful : tree.Faithful state.lookup) (faithful' : tree'.Faithful state.lookup) :
    after.predicateWithin budget visiting tree' = state.predicateWithin budget visiting tree := by
  induction budget generalizing visiting tree tree' with
  | zero => exact Tree.lower_of_shape_eq same _
  | succ budget ih =>
      have enters : ∀ {some : State} {inner : Node}, some.lookup = state.lookup →
          inner.Faithful state.lookup →
          some.predicateWithin (budget + 1) visiting inner =
            lower (fun _ => some.enter budget visiting) inner := by
        intro some inner lookup faithful
        refine Tree.lower_eq_of_nodes fun node member address target => ?_
        rw [follow_eq_lookup (lookup ▸ faithful node member address target)]
        rfl
      rw [enters relinked.lookup faithful', enters rfl faithful, Tree.lower_of_shape_eq same,
        funext (relinked.enter_eq ih)]

/-- A tree is compiled to the same query in both states, or fails alike. -/
theorem compile_eq (same : tree'.shape = tree.shape) (faithful : tree.Faithful state.lookup)
    (faithful' : tree'.Faithful state.lookup) (defaultBase : String) (params : QueryParams) :
    after.compile defaultBase tree' params = state.compile defaultBase tree params := by
  refine compile_congr same ?_ defaultBase params
  rw [predicate, predicate, relinked.length]
  exact relinked.predicateWithin_eq _ same faithful faithful'

end Compilation

end Relinked

end State

namespace Registry

variable {σ : Type} {registry : Registry σ}

/-- A registry compiles trees of one shape alike, whatever is linked in its collections. -/
theorem compile_withState {after : State} (relinked : registry.state.Relinked after)
    {tree tree' : Node} (same : tree'.shape = tree.shape)
    (faithful : tree.Faithful registry.state.lookup)
    (faithful' : tree'.Faithful registry.state.lookup) (params : QueryParams) :
    (registry.withState after).compile tree' params = registry.compile tree params := by
  have checks := relinked.validate_eq same faithful faithful' none
  have compiles := relinked.compile_eq same faithful faithful' registry.config.defaultBaseField params
  show (after.validate tree' none >>= fun _ =>
    after.compile registry.config.defaultBaseField tree' params) = _
  rw [checks, compiles]
  rfl

variable [RecordStore σ]

/-- After any run of operations from an empty registry on, a tree that came without links is checked,
searched and compiled alike, with the same failures, whether all stored links are as the run left them,
made anew or taken away, and whether the tree was linked or not. -/
theorem answers_of_relinked (config : Config) (library : MediaLibrary) (store : σ)
    (nextIdentity : Nat) (operations : List (Operation σ)) (tree : Node)
    (linkless : ∀ node ∈ tree.nodes, node.link = none) :
    let start : Registry σ := { config, library, store, nextIdentity }
    let registry := start.performAll operations
    let state := registry.state
    ∀ after ∈ [state, state.bindAll, state.unbindAll], ∀ tree' ∈ [tree, tree.bound state.lookup],
      (∀ saveAs, (registry.withState after).validate tree' saveAs = registry.validate tree saveAs) ∧
      (∀ address, after.reaches tree' address = state.reaches tree address) ∧
      (∀ params, (registry.withState after).compile tree' params = registry.compile tree params) ∧
      ∀ defaultBase params,
        after.compile defaultBase tree' params = state.compile defaultBase tree params := by
  intro start registry state after member tree' member'
  have relinked := (wellFormed_performAll (.empty : start.state.WellFormed) operations).relinked member
  have faithful : tree.Faithful state.lookup := Tree.faithful_of_linkless linkless
  obtain ⟨same, faithful'⟩ : tree'.shape = tree.shape ∧ tree'.Faithful state.lookup := by
    simp only [List.mem_cons, List.not_mem_nil, or_false] at member'
    rcases member' with rfl | rfl
    · exact ⟨rfl, faithful⟩
    · exact ⟨Tree.shape_bound _ tree, Tree.faithful_bound _ tree⟩
  exact ⟨relinked.validate_eq same faithful faithful', relinked.reaches_eq same faithful faithful',
    compile_withState relinked same faithful faithful', relinked.compile_eq same faithful faithful'⟩

/-- A reference and what it refers to, stored, unlinked and then linked anew. -/
theorem answers_of_relinked_again :
    let start : Registry MemoryStore := { library := Sample.media.toMediaLibrary, store := {} }
    let operations := Sample.requests.map Operation.serve ++ [.unbindAll]
    let registry := start.performAll operations
    let bound := registry.withState registry.state.bindAll
    let tree := Sample.again.bound registry.state.lookup
    (∀ node ∈ Sample.again.nodes, node.link = none) ∧
      bound.validate tree none = registry.validate Sample.again none ∧
      bound.state.reaches tree ⟨.collections, "First"⟩ =
        registry.state.reaches Sample.again ⟨.collections, "First"⟩ ∧
      bound.compile tree {} = registry.compile Sample.again {} := by
  intro start operations registry bound tree
  have linkless : ∀ node ∈ Sample.again.nodes, node.link = none := by decide
  obtain ⟨checks, searches, compiles, -⟩ :=
    answers_of_relinked {} Sample.media.toMediaLibrary ({} : MemoryStore) 0 operations Sample.again
      linkless registry.state.bindAll (.tail _ (.head _)) tree (.tail _ (.head _))
  exact ⟨linkless, checks none, searches ⟨.collections, "First"⟩, compiles {}⟩

end Registry

end Medley
