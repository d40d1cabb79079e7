import Medley.Proofs.Registry.Identities
import Medley.Store.Memory

/-!
# Links of stored collections

The link of a reference is a handle, and handles are used again.  Every change relinks in its own way:
most link everything anew, a save in place of a collection moves its links to the new handle, and a
save under a new name links only the tree that is saved.  Whatever the order of changes, restores and
calls that link or unlink everything, a link that is there is the handle that the reference's address
leads to (`Registry.bound_performAll`).
-/

namespace Medley

namespace Tree

/-- Whether only references that name an address are linked. -/
def Addressed (tree : Node) : Prop :=
  ∀ node ∈ tree.nodes, node.kind = .reference → node.operator.target? = none → node.link = none

theorem addressed_relink {image : Mark → Operator → Option Handle} {tree : Node}
    (unlinks : ∀ mark operator operands, .node mark operator operands ∈ tree.nodes →
      operator.kind = .reference → operator.target? = none → image mark operator = none) :
    (tree.relink image).Addressed := by
  intro node member reference nameless
  rw [relink, nodes_mapNodes] at member
  obtain ⟨⟨mark, operator, operands⟩, inside, rfl⟩ := List.mem_map.1 member
  rw [mapNodes_node] at reference nameless ⊢
  exact unlinks mark operator operands inside reference nameless

theorem addressed_bound (lookup : Address → Option Handle) (tree : Node) :
    (tree.bound lookup).Addressed :=
  addressed_relink fun mark operator operands _ reference nameless => by
    rw [if_pos reference, nameless, Option.bind_none]

theorem addressed_unbound (tree : Node) : tree.unbound.Addressed :=
  addressed_relink fun _ _ _ _ _ _ => rfl

theorem Addressed.rebind {tree : Node} (addressed : tree.Addressed) (old new : Handle) :
    (tree.relink fun mark _ => if mark.link = some old then some new else mark.link).Addressed :=
  addressed_relink fun mark operator operands inside reference nameless => by
    have unlinked : mark.link = none := addressed _ inside reference nameless
    rw [unlinked, if_neg nofun]

/-- Links that follow from names say at every reference what its address leads to. -/
theorem Linked.link_eq {lookup : Address → Option Handle} {tree node : Node}
    (linked : tree.Linked lookup) (addressed : tree.Addressed) (bare : tree.BareReferences)
    (member : node ∈ tree.nodes) (reference : node.kind = .reference) {handle : Handle}
    (link : node.link = some handle) : node.operator.target?.bind lookup = some handle := by
  cases target : node.operator.target? with
  | none =>
      rw [addressed node member reference target] at link
      cases link
  | some address =>
      exact linked _ (mem_references_of_mem_nodes bare member reference target) handle link

end Tree

namespace State

/-- Whether in stored collections only references that name an address are linked. -/
def Addressed (state : State) : Prop :=
  ∀ handle tree, state.resolve handle = some tree → tree.Addressed

variable {state after : State} {address : Address} {tree : Node}

theorem addressed_empty : ({} : State).Addressed :=
  fun handle tree found => by simp [resolve] at found

theorem addressed_bindAll (state : State) : state.bindAll.Addressed := by
  intro handle tree found
  rw [bindAll, resolve_mapRoots] at found
  obtain ⟨node, -, rfl⟩ := Option.map_eq_some_iff.1 found
  exact Tree.addressed_bound _ node

theorem addressed_unbindAll (state : State) : state.unbindAll.Addressed := by
  intro handle tree found
  rw [unbindAll, resolve_mapRoots] at found
  obtain ⟨node, -, rfl⟩ := Option.map_eq_some_iff.1 found
  exact Tree.addressed_unbound node

theorem Addressed.save (addressed : state.Addressed) (sound : state.Sound)
    (saved : state.save address tree = .ok after) : after.Addressed := by
  obtain ⟨-, saves⟩ := save_cases saved
  have linked := Tree.addressed_bound state.lookup tree
  generalize tree.bound state.lookup = node at *
  rcases saves with ⟨handle, -, rfl⟩ | ⟨-, ⟨old, found, rfl⟩ | ⟨free, rfl⟩⟩
  · exact addressed_bindAll _
  · obtain ⟨handle, -, -, resolves⟩ := sound.resolve_overwrite found node
    intro another tree stored
    rw [resolves] at stored
    split at stored
    · cases stored
    obtain ⟨before, stood, rfl⟩ := Option.map_eq_some_iff.1 stored
    refine Tree.Addressed.rebind ?_ old handle
    split at stood
    · exact Option.some.inj stood ▸ linked
    · exact addressed another before stood
  · intro another tree stored
    rw [insert_of_free node free, resolve_point, sound.tidy.resolve_allocate] at stored
    split at stored
    · exact Option.some.inj stored ▸ linked
    · exact addressed another tree stored

theorem Addressed.apply (addressed : state.Addressed) (sound : state.Sound) {request : Request}
    {next : Nat} (applied : (state.apply request next).1 = .ok after) : after.Addressed := by
  cases request with
  | create count => exact Except.ok.inj applied ▸ addressed
  | save address tree => exact addressed.save sound applied
  | remove address =>
      obtain ⟨_, _, -, -, rfl, -⟩ := remove_cases applied
      exact addressed_bindAll _
  | rename address name =>
      obtain ⟨_, -, -, rfl⟩ := rename_cases applied
      exact addressed_bindAll _
  | activate name =>
      obtain ⟨_, -, rfl⟩ := activate_cases applied
      exact addressed_bindAll _

/-- Whether what is stored and named hangs together: names lead to collections, no collection has
names in both namespaces, names of a namespace share a collection exactly if the roots have one
identity, and every link is the handle that the address of its reference leads to. -/
structure Bound (state : State) : Prop where
  occupied : ∀ address handle, state.lookup address = some handle → (state.resolve handle).isSome
  separate : ∀ left right handle, state.lookup left = some handle →
    state.lookup right = some handle → left.space = right.space
  shared : ∀ left right tree tree', left.space = right.space → state.get? left = some tree →
    state.get? right = some tree' →
    (tree.identity = tree'.identity ↔ state.lookup left = state.lookup right)
  linked : ∀ handle tree, state.resolve handle = some tree → ∀ node ∈ tree.nodes,
    node.kind = .reference → ∀ target, node.link = some target →
      node.operator.target?.bind state.lookup = some target

/-- The invariants of names, identities and links together. -/
theorem WellFormed.bound (wellFormed : state.WellFormed) {next : Nat}
    (identified : state.Identified next) (addressed : state.Addressed) : state.Bound where
  occupied address handle leads := wellFormed.occupied leads
  separate left right handle here there := wellFormed.separate here there
  shared left right tree tree' same got got' := by
    obtain ⟨handle, leads, found⟩ := Option.bind_eq_some_iff.1 got
    obtain ⟨handle', leads', found'⟩ := Option.bind_eq_some_iff.1 got'
    rw [leads, leads', Option.some.injEq]
    constructor
    · intro identity
      exact identified.apart same leads leads' (identityAt_of_resolve found)
        (identity ▸ identityAt_of_resolve found')
    · rintro rfl
      rw [Option.some.inj (found.symm.trans found')]
  linked handle tree found node member reference target link := by
    have valid := (Tree.validate_shape tree).1 (wellFormed.valid (content_of_resolve found))
    exact (wellFormed.linked found).link_eq (addressed handle tree found)
      (Tree.bareReferences_of_validate valid) member reference link

end State

namespace Registry

variable {σ : Type} [RecordStore σ] {registry : Registry σ}

/-- A restore links everything anew at its end. -/
theorem addressed_restore (registry : Registry σ) :
    ((restore : Call σ Unit).run registry).2.state.Addressed := by
  rw [restore_run, state_settle]
  exact State.addressed_bindAll _

theorem addressed_perform (addressed : registry.state.Addressed) (sound : registry.state.Sound)
    (operation : Operation σ) : (registry.perform operation).state.Addressed := by
  cases operation with
  | serve request =>
      show (registry.serve request).state.Addressed
      rcases registry.serve_cases request with ⟨state, applied, -, same⟩ | ⟨-, same⟩
      · exact same ▸ addressed.apply sound applied
      · exact same ▸ addressed
  | bindAll => exact registry.state.addressed_bindAll
  | unbindAll => exact registry.state.addressed_unbindAll
  | restore => exact registry.addressed_restore
  | sync => exact (congrArg State.Addressed registry.state_sync).mpr addressed
  | edit store => exact addressed

theorem addressed_performAll (addressed : registry.state.Addressed)
    (wellFormed : registry.state.WellFormed) (operations : List (Operation σ)) :
    (registry.performAll operations).state.Addressed := by
  induction operations generalizing registry with
  | nil => exact addressed
  | cons operation rest ih =>
      exact ih (addressed_perform addressed wellFormed.toSound operation)
        (wellFormed_perform wellFormed operation)

/-- From an empty registry over any store on, after any run of changes, restores, syncs and calls that
link or unlink everything, what is stored and named hangs together, if programs save trees of nodes
that they were given. -/
theorem bound_performAll (config : Config) (library : MediaLibrary) (store : σ)
    (nextIdentity : Nat) (operations : List (Operation σ)) :
    let start : Registry σ := { config, library, store, nextIdentity }
    start.Issues operations → (start.performAll operations).state.Bound := by
  intro start issues
  have empty : start.state.WellFormed := .empty
  have ends := wellFormed_performAll empty operations
  exact ends.bound (identified_performAll (.empty nextIdentity) empty issues)
    (addressed_performAll State.addressed_empty empty operations)

/-- A playlist that is made the active one, a collection of its media, and a restart. -/
theorem bound_performAll_picks :
    let start : Registry MemoryStore := { store := {} }
    let picks : Node := .leaf ⟨0, none⟩ { kind := .list .list, ids := [1] }
    let derived : Node := .unary ⟨1, none⟩ { kind := .complement }
      (.reference ⟨2, none⟩ "Picks" "Playlists")
    let operations : List (Operation MemoryStore) :=
      [.serve (.create 3), .serve (.save ⟨.playlists, "Picks"⟩ picks),
        .serve (.save ⟨.collections, "Rest"⟩ derived), .serve (.activate "Picks"), .sync, .restore]
    start.Issues operations ∧ (start.performAll operations).state.Bound := by
  intro start picks derived operations
  have issues : start.Issues operations := by
    refine ⟨trivial, ?_, ?_, trivial, trivial, trivial, trivial⟩
    · show 0 < 3
      decide
    · show 1 < (((start.serve (.create 3)).serve (.save ⟨.playlists, "Picks"⟩ picks))).nextIdentity
      rw [nextIdentity_serve]
      show 1 < 3
      decide
  have ends := bound_performAll {} .absent ({} : MemoryStore) 0 operations
  exact ⟨issues, ends issues⟩

end Registry

end Medley
