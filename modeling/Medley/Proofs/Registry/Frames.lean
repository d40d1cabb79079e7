import Medley.Proofs.Registry.Aliases
import Medley.Proofs.Registry.Identities

/-!
# What a change leaves alone

A change goes through all stored collections: it empties slots and fills them again, moves names, and
links, renames or copies wherever a reference asks for it.  What is got from a name, with the
identities of all nodes, depends on the handle that the name leads to and on the collection there up
to its links (`State.shown`).  A name that the change is not about and whose collection does not refer
to what is changed is left alone in both, so what is got from it stays (`Registry.framed_serve`).
-/

namespace Medley

/-- One result among those of handing out identities comes from its item alone. -/
theorem Fresh.exists_getElem?_mapM {α β : Type} (action : α → Fresh β) (items : List α) (next : Nat)
    (index : Nat) : ∃ later, (items.mapM action next).1[index]? =
      items[index]?.map fun item => (action item later).1 := by
  induction items generalizing next index with
  | nil => exact ⟨next, rfl⟩
  | cons item rest ih =>
      rw [List.mapM_cons]
      cases index with
      | zero => exact ⟨next, rfl⟩
      | succ index => exact ih (action item next).2 index

namespace Tree

theorem mapNodes_mapNodes {α β γ : Type} (image : α → Operator → β × Operator)
    (later : β → Operator → γ × Operator) (tree : Tree α) :
    mapNodes later (mapNodes image tree) =
      mapNodes (fun mark operator => later (image mark operator).1 (image mark operator).2) tree := by
  induction tree using Tree.induction with
  | node mark operator operands ih =>
      rw [mapNodes_node, mapNodes_node, mapNodes_node, List.map_map, ← List.map_congr_left ih]
      rfl

/-- Links do not show. -/
@[simp] theorem unbound_relink (image : Mark → Operator → Option Handle) (tree : Node) :
    (tree.relink image).unbound = tree.unbound := mapNodes_mapNodes ..

theorem unbound_renameIn (address : Address) (name : String) (tree : Node) :
    (State.renameIn address name tree).unbound = State.renameIn address name tree.unbound := by
  rw [State.renameIn, unbound, relink, mapNodes_mapNodes, mapNodes_mapNodes]

section Absent

variable {address : Address} {tree : Node}

/-- Where an address is not referred to, it is not in any operand. -/
theorem not_mem_addresses_node {mark : Mark} {operator : Operator} {operands : List Node}
    (valid : validate (.node mark operator operands) = .ok ())
    (absent : address ∉ addresses (.node mark operator operands)) :
    operator.target? ≠ some address ∧
      ∀ operand ∈ operands, operand.validate = .ok () ∧ address ∉ operand.addresses := by
  obtain ⟨⟨view, reads, -⟩, below⟩ := (validate_node ..).1 valid
  rw [mem_addresses_node, not_or] at absent
  refine ⟨absent.1, fun operand member => ⟨below operand member, fun inside => absent.2 ?_⟩⟩
  refine ⟨fun reference => ?_, operand, member, inside⟩
  obtain rfl := Operator.operands_eq_nil_of_reference reads reference
  cases member

theorem renameIn_of_not_mem (name : String) (valid : tree.validate = .ok ())
    (absent : address ∉ tree.addresses) : State.renameIn address name tree = tree := by
  induction tree using Tree.induction with
  | node mark operator operands ih =>
      obtain ⟨other, below⟩ := not_mem_addresses_node valid absent
      have each : ∀ operand ∈ operands, State.renameIn address name operand = operand :=
        fun operand member => ih operand member (below operand member).1 (below operand member).2
      rw [State.renameIn, mapNodes_node, if_neg other]
      exact congrArg (Tree.node mark operator) ((List.map_congr_left each).trans (List.map_id' _))

/-- Only references refer to addresses, and they have no operands. -/
theorem spares_of_not_mem (valid : tree.validate = .ok ()) (absent : address ∉ tree.addresses) :
    tree.Spares address := by
  induction tree using Tree.induction with
  | node mark operator operands ih =>
      obtain ⟨other, below⟩ := not_mem_addresses_node valid absent
      exact spares_node.2 ⟨other, fun operand member =>
        ih operand member (below operand member).1 (below operand member).2⟩

theorem inlineIn_of_not_mem (target : Node) (valid : tree.validate = .ok ())
    (absent : address ∉ tree.addresses) (next : Nat) :
    (State.inlineIn address target tree next).1 = tree := by
  obtain ⟨copies, filled, -⟩ := inlines_inlineIn address target tree next
  obtain ⟨-, same⟩ := filled.eq_of_spares
    (List.forall_mem_singleton.2 (spares_of_not_mem valid absent))
  exact List.head_eq_of_cons_eq same

end Absent

end Tree

namespace State

/-- The collection at a handle as it shows, without links. -/
def shown (state : State) (handle : Handle) : Option Node := (state.resolve handle).map Tree.unbound

/-- What shows at an address. -/
def shownAt (state : State) (address : Address) : Option Node :=
  (state.lookup address).bind state.shown

variable {state after : State} {address other : Address} {handle another : Handle} {tree node : Node}

section Showing

theorem shownAt_of_lookup (leads : state.lookup address = some handle) :
    state.shownAt address = state.shown handle := by
  rw [shownAt, leads, Option.bind_some]

theorem shownAt_eq_some : state.shownAt address = some tree ↔
    ∃ handle, state.lookup address = some handle ∧ state.shown handle = some tree :=
  Option.bind_eq_some_iff

/-- Where a name leads, something shows. -/
theorem Sound.exists_shown (sound : state.Sound) (leads : state.lookup address = some handle) :
    ∃ tree, state.shown handle = some tree := by
  obtain ⟨stored, found⟩ := Option.isSome_iff_exists.1 (sound.occupied leads)
  exact ⟨stored.unbound, by rw [shown, found, Option.map_some]⟩

/-- What shows keeps the rules of its kinds. -/
theorem Sound.valid_of_shown (sound : state.Sound) (found : state.shown handle = some tree) :
    tree.validate = .ok () := by
  obtain ⟨stored, resolves, rfl⟩ := Option.map_eq_some_iff.1 found
  have valid := (Tree.validate_shape stored).1 (sound.valid (content_of_resolve resolves))
  exact Tree.validate_of_shape_eq (Tree.shape_unbound stored).symm valid

theorem shown_mapRoots {image shownImage : Node → Node}
    (same : ∀ node, (image node).unbound = shownImage node.unbound) (state : State) (handle : Handle) :
    (state.mapRoots image).shown handle = (state.shown handle).map shownImage := by
  rw [shown, resolve_mapRoots, shown, Option.map_map, Option.map_map]
  exact congrArg (Option.map · _) (funext same)

theorem shown_relinked (image : Mark → Operator → Option Handle) (state : State) (handle : Handle) :
    (state.mapRoots (Tree.relink image)).shown handle = state.shown handle :=
  (shown_mapRoots (Tree.unbound_relink image) state handle).trans (congrFun Option.map_id _)

@[simp] theorem shown_point : (state.point address handle).shown another = state.shown another := by
  rw [shown, resolve_point, shown]

@[simp] theorem shown_unname : (state.unname address).shown handle = state.shown handle := by
  rw [shown, resolve_unname, shown]

theorem shown_replace (found : (state.resolve handle).isSome) :
    (state.replace handle node).shown another =
      if another = handle then some node.unbound else state.shown another :=
  map_resolve_replace found

theorem Tidy.shown_allocate (tidy : state.Tidy) (node : Node) (handle : Handle) :
    (state.allocate node).2.shown handle =
      if handle = (state.allocate node).1 then some node.unbound else state.shown handle :=
  tidy.map_resolve_allocate node handle

@[simp] theorem shown_bindAll (state : State) (handle : Handle) :
    state.bindAll.shown handle = state.shown handle := shown_relinked ..

theorem shown_renameReferences (state : State) (address : Address) (name : String) (handle : Handle) :
    (state.renameReferences address name).shown handle =
      (state.shown handle).map (renameIn address name) :=
  shown_mapRoots (Tree.unbound_renameIn address name) state handle

theorem shown_of_repoint (found : (state.repoint address handle).shown another = some node) :
    state.shown another = some node := map_resolve_of_repoint found

theorem shown_of_release (found : (state.release handle).shown another = some node) :
    state.shown another = some node := map_resolve_of_release found

/-- Inlining goes through the slots one by one. -/
theorem exists_resolve_inlineReferences (state : State) (address : Address) (target : Node)
    (next : Nat) (handle : Handle) :
    ∃ later, (state.inlineReferences address target next).1.resolve handle =
      (state.resolve handle).map fun stored => (inlineIn address target stored later).1 := by
  obtain ⟨later, here⟩ :=
    Fresh.exists_getElem?_mapM (inlineSlot address target) state.slots next handle.index
  refine ⟨later, ?_⟩
  refine (congrArg Option.join here).trans ?_
  rw [resolve]
  rcases state.slots[handle.index]? with - | - | stored <;> rfl

/-- A name whose handle stays and whose collection was there before shows what it showed. -/
theorem Sound.shownAt_eq (sound : after.Sound) (same : after.lookup address = state.lookup address)
    (kept : ∀ handle node, state.lookup address = some handle → after.shown handle = some node →
      state.shown handle = some node) : after.shownAt address = state.shownAt address := by
  cases leads : state.lookup address with
  | none => rw [shownAt, shownAt, same, leads, Option.bind_none, Option.bind_none]
  | some handle =>
      have still := same.trans leads
      obtain ⟨tree, shows⟩ := sound.exists_shown still
      rw [shownAt_of_lookup leads, shownAt_of_lookup still, shows, kept handle _ leads shows]

end Showing

section Changes

/-- After a save the saved tree shows where the name leads, and elsewhere nothing that did not show
before. -/
theorem Sound.shown_save (sound : state.Sound) (saved : state.save address tree = .ok after) :
    ∃ handle, after.lookup address = some handle ∧ ∀ {another node}, after.shown another = some node →
      (if another = handle then some tree.unbound else state.shown another) = some node := by
  obtain ⟨-, saves⟩ := save_cases saved
  have unlinked : (tree.bound state.lookup).unbound = tree.unbound := Tree.unbound_relink ..
  rw [← unlinked]
  generalize tree.bound state.lookup = stored at saves
  rcases saves with ⟨handle, shares, rfl⟩ | ⟨-, ⟨old, found, rfl⟩ | ⟨free, rfl⟩⟩
  · obtain ⟨name, named⟩ := exists_of_sharing shares
    refine ⟨handle, by rw [lookup_bindAll, lookup_repoint, if_pos rfl], fun {another node} shows => ?_⟩
    rw [shown_bindAll] at shows
    exact shown_replace (sound.occupied named) ▸ shown_of_repoint shows
  · obtain ⟨handle, -, lookups, resolves⟩ := sound.resolve_overwrite found stored
    refine ⟨handle, by rw [lookups, if_pos found], fun {another node} shows => ?_⟩
    rw [shown, resolves] at shows
    split at shows
    · cases shows
    · rw [Option.map_map, apply_ite (Option.map _)] at shows
      rw [← shows, shown]
      congr 1
      · exact congrArg some (Tree.unbound_relink ..).symm
      · exact congrArg (Option.map · _) (funext fun tree => (Tree.unbound_relink _ tree).symm)
  · rw [insert_of_free stored free]
    refine ⟨(state.allocate stored).1, by rw [lookup_point, if_pos rfl], fun {another node} shows => ?_⟩
    rwa [shown_point, sound.tidy.shown_allocate] at shows

/-- What shows after a save: the tree under its name, and under other names what they showed, if the
save displaces no collection of theirs. -/
theorem WellFormed.shownAt_save (wellFormed : state.WellFormed)
    (saved : state.save address tree = .ok after) :
    after.shownAt address = some tree.unbound ∧
      (∀ other, (after.lookup other).isSome ↔ other = address ∨ (state.lookup other).isSome) ∧
      ∀ other, other ≠ address →
        (∀ old, state.displaced address tree = some old → state.lookup other ≠ some old) →
        after.shownAt other = state.shownAt other := by
  obtain ⟨-, handle, redirects, moves⟩ := wellFormed.save saved
  obtain ⟨handle', leads, shows⟩ := wellFormed.toSound.shown_save saved
  obtain rfl := Option.some.inj (((moves address).2 (.inl rfl)).symm.trans leads)
  refine ⟨?_, fun other => ?_, fun other different spared => ?_⟩
  · obtain ⟨stored, placed⟩ := redirects.wellFormed.exists_shown leads
    have same := shows placed
    rw [if_pos rfl] at same
    rw [shownAt_of_lookup leads, placed, same]
  · constructor
    · intro named
      rcases redirects.lookup other with same | moved
      · exact .inr (same ▸ named)
      · refine ((moves other).1 moved).imp_right ?_
        rintro ⟨old, -, leads⟩
        rw [leads]
        rfl
    · rintro (rfl | named)
      · rw [leads]
        rfl
      · rcases redirects.lookup other with same | moved
        · exact same ▸ named
        · rw [moved]
          rfl
  · have elsewhere : after.lookup other ≠ some handle := by
      intro moved
      rcases (moves other).1 moved with same | ⟨old, displaces, leads⟩
      · exact different same
      · exact spared old displaces leads
    have same := (redirects.lookup other).resolve_right elsewhere
    refine redirects.wellFormed.toSound.shownAt_eq same fun another node leads here => ?_
    have apart : another ≠ handle := fun equal => elsewhere (same.trans (equal ▸ leads))
    have was := shows here
    rwa [if_neg apart] at was

/-- What a save displaces is what the name shared, or what had the identity of the tree. -/
theorem Sound.of_displaced (sound : state.Sound) (displaces : state.displaced address tree = some handle)
    (leads : state.lookup other = some handle) :
    state.SharesTree other address ∨ other.space = address.space ∧
      ∃ held, state.shownAt other = some held ∧ held.identity = tree.identity := by
  rcases Option.or_eq_some_iff.1 displaces with shares | ⟨-, found⟩
  · obtain ⟨name, named⟩ := exists_of_sharing shares
    obtain ⟨stored, resolves, same⟩ := Option.map_eq_some_iff.1 (identityAt_of_sharing shares)
    have home := sound.separate leads named
    refine .inr ⟨home, stored.unbound, ?_, ?_⟩
    · rw [shownAt_of_lookup leads, shown, resolves, Option.map_some]
    · exact (Tree.identity_relink _ stored).trans same
  · exact .inl ⟨handle, leads, found⟩

/-- What shows after a removal under names whose collections do not refer to the removed one. -/
theorem WellFormed.shownAt_remove (wellFormed : state.WellFormed) {next : Nat}
    (removed : (state.remove address next).1 = .ok after) (different : other ≠ address)
    (unmentioned : ∀ tree, state.shownAt other = some tree → address ∉ tree.addresses) :
    after.shownAt other = state.shownAt other := by
  obtain ⟨_, _, -, -, afterwards, lookups, -⟩ := wellFormed.remove removed
  obtain ⟨handle, target, -, -, rfl, -⟩ := remove_cases removed
  refine afterwards.toSound.shownAt_eq (by rw [lookups, if_neg different])
    fun another node leads shows => ?_
  rw [shown_bindAll] at shows
  obtain ⟨later, inlines⟩ :=
    (state.unname address).exists_resolve_inlineReferences address target next another
  have inlined := shown_of_release shows
  rw [shown, inlines, resolve_unname, Option.map_map] at inlined
  obtain ⟨stored, found, rfl⟩ := Option.map_eq_some_iff.1 inlined
  have here : state.shown another = some stored.unbound := by rw [shown, found, Option.map_some]
  have absent := unmentioned stored.unbound (shownAt_eq_some.2 ⟨another, leads, here⟩)
  rw [Tree.addresses_unbound] at absent
  have valid := (Tree.validate_shape stored).1 (wellFormed.valid (content_of_resolve found))
  rw [here, Function.comp_apply, Tree.inlineIn_of_not_mem target valid absent]

/-- What shows after a renaming. -/
theorem WellFormed.shownAt_rename (wellFormed : state.WellFormed) {name : String}
    (renamed : state.rename address name = .ok after) :
    (∃ tree, state.shownAt address = some tree ∧
        after.shownAt { address with name } = some (renameIn address name tree)) ∧
      ∀ other, other ≠ address → other ≠ { address with name } →
        (∀ tree, state.shownAt other = some tree → address ∉ tree.addresses) →
        after.shownAt other = state.shownAt other := by
  obtain ⟨handle, leads, -, afterwards, lookups, -⟩ := wellFormed.rename renamed
  have shows : ∀ another, after.shown another = (state.shown another).map (renameIn address name) := by
    obtain ⟨_, -, -, rfl⟩ := rename_cases renamed
    intro another
    rw [shown_bindAll, shown_renameReferences, shown_point, shown_unname]
  refine ⟨?_, fun other different apart unmentioned => ?_⟩
  · have moved : after.lookup { address with name } = some handle := by rw [lookups, if_pos rfl]
    obtain ⟨tree, found⟩ := wellFormed.exists_shown leads
    refine ⟨tree, (shownAt_of_lookup leads).trans found, ?_⟩
    rw [shownAt_of_lookup moved, shows, found, Option.map_some]
  · have same : after.lookup other = state.lookup other := by
      rw [lookups, if_neg apart, if_neg different]
    refine afterwards.toSound.shownAt_eq same fun another node leads here => ?_
    rw [shows] at here
    obtain ⟨tree, found, rfl⟩ := Option.map_eq_some_iff.1 here
    have absent := unmentioned tree (shownAt_eq_some.2 ⟨another, leads, found⟩)
    rw [found, Tree.renameIn_of_not_mem name (wellFormed.valid_of_shown found) absent]

/-- What shows after a playlist was made the active one. -/
theorem WellFormed.shownAt_activate (wellFormed : state.WellFormed) {name : String}
    (activated : state.activate name = .ok after) :
    (∃ tree, state.shownAt ⟨.playlists, name⟩ = some tree ∧
        after.shownAt ⟨.playlists, activeName⟩ = some tree) ∧
      ∀ other, other ≠ ⟨.playlists, activeName⟩ → after.shownAt other = state.shownAt other := by
  obtain ⟨handle, _, leads, -, redirects, lookups⟩ := wellFormed.activate activated
  have kept : ∀ {another node}, after.shown another = some node → state.shown another = some node := by
    obtain ⟨_, -, rfl⟩ := activate_cases activated
    intro another node here
    rw [shown_bindAll] at here
    exact shown_of_repoint here
  refine ⟨?_, fun other different => ?_⟩
  · have active : after.lookup ⟨.playlists, activeName⟩ = some handle := by rw [lookups, if_pos rfl]
    obtain ⟨tree, shows⟩ := redirects.wellFormed.exists_shown active
    exact ⟨tree, (shownAt_of_lookup leads).trans (kept shows), (shownAt_of_lookup active).trans shows⟩
  · have same : after.lookup other = state.lookup other := by rw [lookups, if_neg different]
    exact redirects.wellFormed.toSound.shownAt_eq same fun _ _ _ here => kept here

end Changes

end State

/-- What a request puts under the names that it is about, given what was got and is got. -/
def Request.Puts (before after : Address → Except Error Node) : Request → Prop
  | .create _ => True
  | .save address tree => after address = .ok tree.unbound
  | .remove address => after address = address.notFound
  | .rename address name =>
      after address = address.notFound ∧
        after { address with name } = (before address).map (State.renameIn address name)
  | .activate name => after ⟨.playlists, activeName⟩ = before ⟨.playlists, name⟩

/-- The addresses that are in use after a request, given those in use before. -/
def Request.Lists (listed : Address → Prop) : Request → Address → Prop
  | .create _, other => listed other
  | .save address _, other => other = address ∨ listed other
  | .remove address, other => other ≠ address ∧ listed other
  | .rename address name, other => other = { address with name } ∨ other ≠ address ∧ listed other
  | .activate _, other => other = ⟨.playlists, activeName⟩ ∨ listed other

namespace Registry

variable {σ : Type}

/-- The addresses whose collections a request may change: those that it is about, for a save the names
that share the collection there or have one with the identity of the tree, and for a removal or a
renaming those whose collections refer to the name. -/
def Touches (registry : Registry σ) : Request → Address → Prop
  | .create _, _ => False
  | .save address tree, other =>
      other = address ∨ registry.state.SharesTree other address ∨
        (other.space = address.space ∧
          ∃ held, registry.get other = .ok held ∧ held.identity = tree.identity)
  | .remove address, other =>
      other = address ∨ ∃ held, registry.get other = .ok held ∧ address ∈ held.addresses
  | .rename address name, other =>
      other = address ∨ other = { address with name } ∨
        ∃ held, registry.get other = .ok held ∧ address ∈ held.addresses
  | .activate _, other => other = ⟨.playlists, activeName⟩

/-- What is got is what shows. -/
theorem get_eq_shownAt (registry : Registry σ) (address : Address) :
    registry.get address = (registry.state.shownAt address).elim address.notFound .ok := by
  unfold get State.get? State.shownAt
  cases registry.state.lookup address with
  | none => rfl
  | some handle =>
      rw [Option.bind_some, Option.bind_some, State.shown]
      cases registry.state.resolve handle <;> rfl

theorem get_eq_ok_iff_shownAt {registry : Registry σ} {address : Address} {tree : Node} :
    registry.get address = .ok tree ↔ registry.state.shownAt address = some tree := by
  rw [get_eq_shownAt]
  cases registry.state.shownAt address <;> simp [Address.notFound, fail]

theorem get_congr {registry after : Registry σ} {address : Address}
    (shows : after.state.shownAt address = registry.state.shownAt address) :
    after.get address = registry.get address := by
  rw [get_eq_shownAt, get_eq_shownAt, shows]

theorem get_of_lookup_eq_none {registry : Registry σ} {address : Address}
    (free : registry.state.lookup address = none) : registry.get address = address.notFound := by
  rw [get_eq_shownAt, State.shownAt, free]
  rfl

theorem mem_list {registry : Registry σ} {address : Address} :
    address.name ∈ registry.list address.space ↔ (registry.state.lookup address).isSome :=
  SortedMap.mem_keys_iff

theorem pairwise_list (registry : Registry σ) (space : Namespace) :
    (registry.list space).Pairwise fun left right => compare left right = .lt :=
  List.pairwise_map.2 (registry.state.names space).sorted

/-- The frame of a request: it puts under its names what it is to put there, what is got from a name
that it does not touch is the same tree as before, and the names that are listed, in their order, are
those from before up to the one that is added, removed or renamed. -/
structure Framed (registry : Registry σ) (request : Request) (after : Registry σ) : Prop where
  puts : request.Puts registry.get after.get
  keeps : ∀ other, ¬ registry.Touches request other → after.get other = registry.get other
  lists : ∀ other, other.name ∈ after.list other.space ↔
    request.Lists (fun address => address.name ∈ registry.list address.space) other
  ordered : ∀ space, (after.list space).Pairwise fun left right => compare left right = .lt

section Framing

variable {registry after : Registry σ} {address : Address} {tree : Node} {name : String} {next : Nat}

theorem framed_create {count : Nat} (same : after.state = registry.state) :
    registry.Framed (.create count) after := by
  refine ⟨trivial, fun other _ => get_congr (by rw [same]), fun other => ?_, after.pairwise_list⟩
  simp only [Request.Lists, mem_list, same]

theorem framed_save (wellFormed : registry.state.WellFormed)
    (saved : registry.state.save address tree = .ok after.state) :
    registry.Framed (.save address tree) after := by
  obtain ⟨placed, named, spared⟩ := wellFormed.shownAt_save saved
  refine ⟨get_eq_ok_iff_shownAt.2 placed, fun other untouched => ?_, fun other => ?_,
    after.pairwise_list⟩
  · obtain ⟨different, apart⟩ := not_or.1 untouched
    refine get_congr (spared other different fun old displaces leads => apart ?_)
    refine (wellFormed.of_displaced displaces leads).imp_right (.imp_right ?_)
    rintro ⟨held, shows, same⟩
    exact ⟨held, get_eq_ok_iff_shownAt.2 shows, same⟩
  · simp only [Request.Lists, mem_list, named]

theorem framed_remove (wellFormed : registry.state.WellFormed)
    (removed : (registry.state.remove address next).1 = .ok after.state) :
    registry.Framed (.remove address) after := by
  obtain ⟨_, _, -, -, -, lookups, -⟩ := wellFormed.remove removed
  refine ⟨get_of_lookup_eq_none (by rw [lookups, if_pos rfl]), fun other untouched => ?_,
    fun other => ?_, after.pairwise_list⟩
  · obtain ⟨different, unmentioned⟩ := not_or.1 untouched
    refine get_congr (wellFormed.shownAt_remove removed different fun held shows member => ?_)
    exact unmentioned ⟨held, get_eq_ok_iff_shownAt.2 shows, member⟩
  · simp only [Request.Lists, mem_list, lookups]
    by_cases same : other = address <;> simp [same]

theorem framed_rename (wellFormed : registry.state.WellFormed)
    (renamed : registry.state.rename address name = .ok after.state) :
    registry.Framed (.rename address name) after := by
  obtain ⟨handle, leads, free, -, lookups, -⟩ := wellFormed.rename renamed
  obtain ⟨⟨tree, shows, moved⟩, stays⟩ := wellFormed.shownAt_rename renamed
  have different : address ≠ { address with name } := by
    intro same
    rw [← same, leads] at free
    cases free
  refine ⟨⟨get_of_lookup_eq_none (by rw [lookups, if_neg different, if_pos rfl]), ?_⟩,
    fun other untouched => ?_, fun other => ?_, after.pairwise_list⟩
  · rw [get_eq_ok_iff_shownAt.2 moved, get_eq_ok_iff_shownAt.2 shows]
    rfl
  · simp only [Touches, not_or] at untouched
    obtain ⟨other_ne, apart, unmentioned⟩ := untouched
    refine get_congr (stays other other_ne apart fun held shows member => ?_)
    exact unmentioned ⟨held, get_eq_ok_iff_shownAt.2 shows, member⟩
  · simp only [Request.Lists, mem_list, lookups]
    by_cases new : other = { address with name }
    · simp [new]
    · by_cases same : other = address <;> simp [new, same, different]

theorem framed_activate (wellFormed : registry.state.WellFormed)
    (activated : registry.state.activate name = .ok after.state) :
    registry.Framed (.activate name) after := by
  obtain ⟨_, _, leads, -, -, lookups⟩ := wellFormed.activate activated
  obtain ⟨⟨tree, shows, active⟩, stays⟩ := wellFormed.shownAt_activate activated
  refine ⟨?_, fun other different => get_congr (stays other different), fun other => ?_,
    after.pairwise_list⟩
  · exact (get_eq_ok_iff_shownAt.2 active).trans (get_eq_ok_iff_shownAt.2 shows).symm
  · simp only [Request.Lists, mem_list, lookups]
    by_cases same : other = ⟨.playlists, activeName⟩ <;> simp [same]

end Framing

variable [RecordStore σ]

/-- Through any run, what a request that succeeds does to what is got and listed is bounded by its
frame. -/
theorem framed_serve (config : Config) (library : MediaLibrary) (store : σ) (nextIdentity : Nat)
    (operations : List (Operation σ)) (request : Request) :
    let start : Registry σ := { config, library, store, nextIdentity }
    let registry := start.performAll operations
    registry.Accepts request → registry.Framed request (registry.serve request) := by
  intro start registry accepted
  have wellFormed : registry.state.WellFormed := wellFormed_performAll .empty operations
  obtain ⟨state, applied, -, same⟩ :=
    (registry.serve_cases request).resolve_right fun refused => refused.1 accepted
  rw [← same] at applied
  cases request with
  | create count => exact framed_create (Except.ok.inj applied).symm
  | save address tree => exact framed_save wellFormed applied
  | remove address => exact framed_remove wellFormed applied
  | rename address name => exact framed_rename wellFormed applied
  | activate name => exact framed_activate wellFormed applied

/-- A list is saved with the identity of another collection and of a playlist: the playlist stays, as it
is in the other namespace. -/
theorem framed_serve_other_space :
    let start : Registry MemoryStore := { store := {} }
    let list (identity : Nat) (id : Int64) : Node :=
      .leaf ⟨identity, none⟩ { kind := .list .list, ids := [id] }
    let operations : List (Operation MemoryStore) :=
      [.serve (.save ⟨.collections, "A"⟩ (list 0 1)), .serve (.save ⟨.collections, "B"⟩ (list 1 2)),
        .serve (.save ⟨.playlists, "C"⟩ (list 1 3)), .serve (.activate "C")]
    let registry := start.performAll operations
    let request : Request := .save ⟨.collections, "A"⟩ (list 1 4)
    let after := registry.serve request
    registry.Accepts request ∧ registry.Touches request ⟨.collections, "B"⟩ ∧
      ¬ registry.Touches request ⟨.playlists, "C"⟩ ∧ registry.Framed request after ∧
      after.get ⟨.playlists, "C"⟩ = .ok (list 1 3) := by
  intro start list operations registry request after
  have accepted : registry.Accepts request := by
    unfold Accepts
    subst request registry operations list start
    decide +kernel
  have touches : registry.Touches request ⟨.collections, "B"⟩ := by
    refine .inr (.inr ⟨rfl, list 1 2, ?_, rfl⟩)
    subst registry operations list start
    decide +kernel
  have untouched : ¬ registry.Touches request ⟨.playlists, "C"⟩ := by
    rintro (same | ⟨handle, leads, leadsHere⟩ | ⟨same, -⟩)
    · exact absurd same (by decide)
    · have apart : registry.state.lookup ⟨.playlists, "C"⟩ ≠
          registry.state.lookup ⟨.collections, "A"⟩ := by
        subst registry operations list start
        decide +kernel
      exact apart (leads.trans leadsHere.symm)
    · exact absurd same (by decide)
  have framed := framed_serve {} .absent ({} : MemoryStore) 0 operations request accepted
  have held : registry.get ⟨.playlists, "C"⟩ = .ok (list 1 3) := by
    subst registry operations list start
    decide +kernel
  exact ⟨accepted, touches, untouched, framed, (framed.keeps _ untouched).trans held⟩

end Registry

end Medley
