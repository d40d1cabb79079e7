import Medley.Proofs.Registry.Arena
import Medley.Proofs.Tree.Inlining

/-!
# Well-formed states

What a collection means depends on names and shapes: which handle an address leads to, and what the
collection at a handle says (`State.content`).  A state is sound if every name leads to a collection, no
collection is shared between the namespaces, and every collection keeps the rules of its kinds; it is
well-formed if, moreover, every link is the handle that its address is stored under.  Binding makes a
sound state well-formed.
-/

namespace Medley.State

/-- What the collection at a handle says. -/
def content (state : State) (handle : Handle) : Option Shape := (state.resolve handle).map Tree.shape

/-- What the collection at an address says. -/
def shapeAt (state : State) (address : Address) : Option Shape :=
  (state.lookup address).bind state.content

/-- Names lead to collections, namespaces share none, and collections keep the rules of their
kinds. -/
structure Sound (state : State) : Prop where
  tidy : state.Tidy
  named : ∀ {address handle}, state.lookup address = some handle → (state.content handle).isSome
  separate : ∀ {left right : Address} {handle}, state.lookup left = some handle →
    state.lookup right = some handle → left.space = right.space
  valid : ∀ {handle shape}, state.content handle = some shape → shape.validate = .ok ()

/-- A sound state whose links follow from its names. -/
structure WellFormed (state : State) : Prop extends state.Sound where
  linked : ∀ {handle tree}, state.resolve handle = some tree → tree.Linked state.lookup

variable {state : State} {address other : Address} {handle another : Handle} {node : Node}

section Contents

theorem content_isSome : (state.content handle).isSome = (state.resolve handle).isSome := by
  simp [content]

theorem content_eq_none : state.content handle = none ↔ state.resolve handle = none := by
  simp [content]

theorem content_of_resolve (found : state.resolve handle = some node) :
    state.content handle = some node.shape := by
  simp [content, found]

theorem exists_of_content {shape : Shape} (found : state.content handle = some shape) :
    ∃ tree, state.resolve handle = some tree ∧ tree.shape = shape :=
  Option.map_eq_some_iff.1 found

theorem shapeAt_of_lookup (leads : state.lookup address = some handle) :
    state.shapeAt address = state.content handle := by
  rw [shapeAt, leads, Option.bind_some]

theorem shapeAt_eq_some {shape : Shape} :
    state.shapeAt address = some shape ↔
      ∃ handle tree, state.lookup address = some handle ∧ state.resolve handle = some tree ∧
        tree.shape = shape := by
  simp only [shapeAt, content, Option.bind_eq_some_iff, Option.map_eq_some_iff, exists_and_left]

@[simp] theorem content_point :
    (state.point address handle).content another = state.content another := by
  simp [content]

@[simp] theorem content_unname : (state.unname address).content handle = state.content handle := by
  simp [content]

@[simp] theorem content_pointAll (space : Namespace) (names : List String) :
    (state.pointAll space names handle).content another = state.content another := by
  simp [content]

theorem content_replace (found : (state.content handle).isSome) :
    (state.replace handle node).content another =
      if another = handle then some node.shape else state.content another :=
  map_resolve_replace (content_isSome ▸ found)

theorem Tidy.content_allocate (tidy : state.Tidy) (node : Node) (handle : Handle) :
    (state.allocate node).2.content handle =
      if handle = (state.allocate node).1 then some node.shape else state.content handle :=
  tidy.map_resolve_allocate node handle

theorem content_release :
    (state.release handle).content another =
      if another = handle ∧ state.isNamed handle = false then none else state.content another := by
  rw [content, resolve_release, apply_ite (Option.map Tree.shape)]
  rfl

theorem content_repoint :
    (state.repoint address handle).content another =
      if state.lookup address = some another ∧ (state.point address handle).isNamed another = false
      then none else state.content another := by
  rw [content, resolve_repoint, apply_ite (Option.map Tree.shape)]
  rfl

theorem content_of_release {shape : Shape}
    (found : (state.release handle).content another = some shape) :
    state.content another = some shape := map_resolve_of_release found

theorem content_of_repoint {shape : Shape}
    (found : (state.repoint address handle).content another = some shape) :
    state.content another = some shape := map_resolve_of_repoint found

/-- Relinking changes nothing that is said. -/
theorem content_mapRoots_of_shape {image : Node → Node}
    (same : ∀ node, (image node).shape = node.shape) :
    (state.mapRoots image).content handle = state.content handle := by
  rw [content, resolve_mapRoots, Option.map_map, content]
  exact congrArg (Option.map · _) (funext same)

@[simp] theorem content_bindAll : state.bindAll.content handle = state.content handle :=
  content_mapRoots_of_shape fun node => Tree.shape_bound _ node

@[simp] theorem content_unbindAll : state.unbindAll.content handle = state.content handle :=
  content_mapRoots_of_shape Tree.shape_unbound

@[simp] theorem content_rebind (old new : Handle) :
    (state.rebind old new).content handle = state.content handle :=
  content_mapRoots_of_shape fun node => Tree.shape_relink _ node

@[simp] theorem lookup_bindAll : state.bindAll.lookup = state.lookup :=
  funext fun _ => lookup_mapRoots _

@[simp] theorem lookup_unbindAll : state.unbindAll.lookup = state.lookup :=
  funext fun _ => lookup_mapRoots _

@[simp] theorem lookup_rebind (old new : Handle) : (state.rebind old new).lookup = state.lookup :=
  funext fun _ => lookup_mapRoots _

@[simp] theorem lookup_renameReferences (name : String) :
    (state.renameReferences address name).lookup = state.lookup :=
  funext fun _ => lookup_mapRoots _

theorem content_renameReferences (name : String)
    (valid : ∀ {handle shape}, state.content handle = some shape → shape.validate = .ok ()) :
    (state.renameReferences address name).content handle =
      (state.content handle).map (Tree.substitute (·.renamed address name)) := by
  rw [content, renameReferences, resolve_mapRoots, content]
  cases found : state.resolve handle with
  | none => rfl
  | some tree =>
      have keeps := (Tree.validate_shape tree).1 (valid (content_of_resolve found))
      simp only [Option.map_some, Tree.shape_renameIn address name keeps]
      rw [Tree.substitute_shape]

@[simp] theorem lookup_inlineReferences (state : State) (address : Address) (target : Node)
    (next : Nat) :
    (state.inlineReferences address target next).1.lookup = state.lookup := by
  funext ⟨space, name⟩
  cases space <;> rfl

theorem content_inlineReferences (target : Node) (next : Nat) :
    (state.inlineReferences address target next).1.content handle =
      (state.content handle).map (Tree.substitute (·.inlined address target.shape)) := by
  have slots : (state.inlineReferences address target next).1.slots.map (Option.map Tree.shape) =
      state.slots.map (Option.map (Tree.substitute (·.inlined address target.shape))) := by
    apply Fresh.map_mapM
    intro slot _ next
    cases slot with
    | none => rfl
    | some root => exact congrArg some (Tree.shape_inlineIn address target root next)
  simp only [content, resolve, Option.map_map, ← Option.join_map_eq_map_join]
  rw [← List.getElem?_map]
  refine (congrArg (fun slots => (slots[handle.index]?).join) slots).trans ?_
  rw [List.getElem?_map]
  congr 2
  funext slot
  cases slot <;> simp

theorem Tidy.inlineReferences (tidy : state.Tidy) (address : Address) (target : Node) (next : Nat) :
    (state.inlineReferences address target next).1.Tidy := by
  have free : (state.inlineReferences address target next).1.free = state.free := rfl
  have length : (state.inlineReferences address target next).1.slots.length = state.slots.length :=
    Fresh.length_mapM ..
  refine ⟨fun index => ?_, free ▸ tidy.nodup⟩
  rw [free, tidy.mem_free, length, ← content_eq_none, ← content_eq_none, content_inlineReferences,
    Option.map_eq_none_iff]

end Contents

namespace Sound

section Names

theorem occupied (sound : state.Sound) (found : state.lookup address = some handle) :
    (state.resolve handle).isSome :=
  content_isSome ▸ sound.named found

theorem shapeAt_isSome (sound : state.Sound) :
    (state.shapeAt address).isSome = (state.lookup address).isSome := by
  cases leads : state.lookup address with
  | none => rw [shapeAt, leads]; rfl
  | some handle => rw [shapeAt_of_lookup leads, sound.named leads]; rfl

/-- All names of a collection are in one namespace. -/
theorem home (sound : state.Sound) (found : state.lookup address = some handle) :
    ∀ other, state.lookup other = some handle → other.space = address.space :=
  fun _ also => sound.separate also found

/-- A name may be given to a collection that has no name outside its namespace. -/
theorem point (sound : state.Sound) (there : (state.content handle).isSome) (address : Address)
    (home : ∀ other, state.lookup other = some handle → other.space = address.space) :
    (state.point address handle).Sound where
  tidy := tidy_setNames.2 sound.tidy
  named {other another} found := by
    rw [content_point]
    rw [lookup_point] at found
    split at found
    · cases found
      exact there
    · exact sound.named found
  separate {left right another} here also := by
    rw [lookup_point] at here also
    split at here <;> split at also
    · next first second => rw [first, second]
    · next first _ =>
      cases here
      rw [first]
      exact (home right also).symm
    · next _ second =>
      cases also
      rw [second]
      exact home left here
    · exact sound.separate here also
  valid found := sound.valid (content_point ▸ found)

theorem pointAll (sound : state.Sound) (there : (state.content handle).isSome) {space : Namespace}
    (home : ∀ other, state.lookup other = some handle → other.space = space) (names : List String) :
    (state.pointAll space names handle).Sound := by
  induction names generalizing state with
  | nil => exact sound
  | cons name rest ih =>
      rw [State.pointAll, List.foldl_cons, ← State.pointAll]
      refine ih (sound.point there ⟨space, name⟩ home) (by rwa [content_point]) fun other found => ?_
      rw [lookup_point] at found
      split at found
      · next same => rw [same]
      · exact home other found

theorem unname (sound : state.Sound) (address : Address) : (state.unname address).Sound where
  tidy := tidy_setNames.2 sound.tidy
  named found := by
    rw [content_unname]
    rw [lookup_unname] at found
    split at found
    · cases found
    · exact sound.named found
  separate here also := by
    rw [lookup_unname] at here also
    split at here
    · cases here
    · split at also
      · cases also
      · exact sound.separate here also
  valid found := sound.valid (content_unname ▸ found)

theorem release (sound : state.Sound) (handle : Handle) : (state.release handle).Sound where
  tidy := sound.tidy.release
  named {address another} found := by
    rw [lookup_release] at found
    rw [content_release, if_neg]
    · exact sound.named found
    · rintro ⟨rfl, unnamed⟩
      rw [isNamed_eq_true.2 ⟨address, found⟩] at unnamed
      cases unnamed
  separate here also := sound.separate (lookup_release ▸ here) (lookup_release ▸ also)
  valid found := sound.valid (content_of_release found)

theorem repoint (sound : state.Sound) (there : (state.content handle).isSome) (address : Address)
    (home : ∀ other, state.lookup other = some handle → other.space = address.space) :
    (state.repoint address handle).Sound := by
  have pointed := sound.point there address home
  unfold State.repoint
  cases state.lookup address with
  | none => exact pointed
  | some old => exact pointed.release old

end Names

section Slots

/-- No name leads to a slot that a new collection is put into. -/
theorem lookup_ne_allocate (sound : state.Sound) (node : Node) (address : Address) :
    state.lookup address ≠ some (state.allocate node).1 := by
  intro found
  have empty := content_eq_none.2 (sound.tidy.resolve_allocate_self node)
  simpa [empty] using sound.named found

theorem allocate (sound : state.Sound) (valid : node.validate = .ok ()) :
    (state.allocate node).2.Sound where
  tidy := sound.tidy.allocate
  named {address another} found := by
    rw [lookup_allocate] at found
    rw [sound.tidy.content_allocate]
    split
    · rfl
    · exact sound.named found
  separate here also := sound.separate (lookup_allocate .. ▸ here) (lookup_allocate .. ▸ also)
  valid found := by
    rw [sound.tidy.content_allocate] at found
    split at found
    · exact Option.some.inj found ▸ (Tree.validate_shape node).2 valid
    · exact sound.valid found

theorem replace (sound : state.Sound) (there : (state.content handle).isSome)
    (valid : node.validate = .ok ()) : (state.replace handle node).Sound where
  tidy := sound.tidy.replace (content_isSome ▸ there)
  named found := by
    rw [content_replace there]
    split
    · rfl
    · exact sound.named (lookup_replace ▸ found)
  separate here also := sound.separate (lookup_replace ▸ here) (lookup_replace ▸ also)
  valid found := by
    rw [content_replace there] at found
    split at found
    · exact Option.some.inj found ▸ (Tree.validate_shape node).2 valid
    · exact sound.valid found

theorem mapRoots (sound : state.Sound) {image : Node → Node}
    (keeps : ∀ node, node.validate = .ok () → (image node).validate = .ok ()) :
    (state.mapRoots image).Sound where
  tidy := sound.tidy.mapRoots image
  named found := by
    have there := sound.occupied (lookup_mapRoots image ▸ found)
    simpa [content_isSome] using there
  separate here also :=
    sound.separate (lookup_mapRoots image ▸ here) (lookup_mapRoots image ▸ also)
  valid {handle shape} found := by
    obtain ⟨tree, here, rfl⟩ := exists_of_content found
    rw [resolve_mapRoots] at here
    obtain ⟨node, stored, rfl⟩ := Option.map_eq_some_iff.1 here
    have before := (Tree.validate_shape node).1 (sound.valid (content_of_resolve stored))
    exact (Tree.validate_shape _).2 (keeps node before)

theorem relinked (sound : state.Sound) {image : Node → Node}
    (same : ∀ node, (image node).shape = node.shape) : (state.mapRoots image).Sound :=
  sound.mapRoots fun node => Tree.validate_of_shape_eq (same node).symm

theorem inlineReferences (sound : state.Sound) (address : Address) {target : Node}
    (valid : target.validate = .ok ()) (next : Nat) :
    (state.inlineReferences address target next).1.Sound where
  tidy := sound.tidy.inlineReferences address target next
  named found := by
    rw [content_inlineReferences, Option.isSome_map]
    exact sound.named (lookup_inlineReferences state address target next ▸ found)
  separate here also :=
    sound.separate (lookup_inlineReferences state address target next ▸ here)
      (lookup_inlineReferences state address target next ▸ also)
  valid found := by
    rw [content_inlineReferences] at found
    obtain ⟨shape, before, rfl⟩ := Option.map_eq_some_iff.1 found
    refine Tree.validate_substitute (sound.valid before) fun operator shape replaced => ?_
    rw [(Operator.eq_of_inlined replaced).2]
    exact (Tree.validate_shape target).2 valid

theorem renameReferences (sound : state.Sound) (address : Address) (name : String) :
    (state.renameReferences address name).Sound :=
  sound.mapRoots fun node valid => by
    rw [← Tree.validate_shape, Tree.shape_renameIn address name valid]
    exact Tree.validate_substitute valid fun _ _ => Operator.validate_renamed

end Slots

/-- Links that are recomputed from the names follow from them. -/
theorem bindAll (sound : state.Sound) : state.bindAll.WellFormed where
  toSound := sound.relinked fun node => Tree.shape_bound _ node
  linked {handle tree} found := by
    rw [State.bindAll, resolve_mapRoots] at found
    obtain ⟨node, -, rfl⟩ := Option.map_eq_some_iff.1 found
    rw [lookup_bindAll]
    exact Tree.linked_bound _ node

theorem unbindAll (sound : state.Sound) : state.unbindAll.WellFormed where
  toSound := sound.relinked Tree.shape_unbound
  linked {handle tree} found := by
    rw [State.unbindAll, resolve_mapRoots] at found
    obtain ⟨node, -, rfl⟩ := Option.map_eq_some_iff.1 found
    exact Tree.linked_unbound _ node

end Sound

theorem WellFormed.empty : ({} : State).WellFormed where
  tidy := ⟨fun index => by simp [resolve], .nil⟩
  named {address handle} found := by
    obtain ⟨space, name⟩ := address
    cases space <;> cases found
  separate {left right handle} here _ := by
    obtain ⟨space, name⟩ := left
    cases space <;> cases here
  valid found := by simp [content, resolve] at found
  linked found := by simp [resolve] at found

end Medley.State
