import Medley.Proofs.Registry.WellFormed

/-!
# What a change does to names and contents

For each change of a well-formed state: which handle every address leads to afterwards, and what the
collections say.  The state afterwards is well-formed again.  Collections that no name leads to any
more may be gone, so contents are compared where a collection still is.
-/

namespace Medley.State

variable {state after : State} {address other : Address} {handle another : Handle} {tree : Node}

/-- A change after which some names lead to a handle that they did not lead to, or to another
collection there. -/
structure Redirects (before after : State) (handle : Handle) (shape : Shape) : Prop where
  wellFormed : after.WellFormed
  lookup : ∀ address, after.lookup address = before.lookup address ∨
    after.lookup address = some handle
  placed : after.content handle = some shape
  kept : ∀ {another content}, another ≠ handle → after.content another = some content →
    before.content another = some content

/-- The handle whose names a save takes over. -/
def displaced (state : State) (address : Address) (tree : Node) : Option Handle :=
  (state.sharing address.space tree.identity).or (state.lookup address)

section Steps

/-- A name that is new displaces no collection. -/
theorem insert_of_free (node : Node) (free : state.lookup address = none) :
    state.insert address node = (state.allocate node).2.point address (state.allocate node).1 := by
  rw [← lookup_allocate state node] at free
  rw [State.insert]
  generalize state.allocate node = allocation at free ⊢
  obtain ⟨handle, next⟩ := allocation
  show next.repoint address handle = next.point address handle
  unfold State.repoint
  rw [show next.lookup address = none from free]

/-- A save that succeeds puts the tree in place of the one whose identity it has, or else of what the
name points to, or under a name that is new. -/
theorem save_cases (saved : state.save address tree = .ok after) :
    state.validate tree (some address) = .ok () ∧
      ((∃ handle, state.sharing address.space (tree.bound state.lookup).identity = some handle ∧
          after = ((state.replace handle (tree.bound state.lookup)).repoint address handle).bindAll) ∨
        state.sharing address.space (tree.bound state.lookup).identity = none ∧
          ((∃ old, state.lookup address = some old ∧
              after = state.overwrite address.space old (tree.bound state.lookup)) ∨
            state.lookup address = none ∧ after = state.insert address (tree.bound state.lookup))) := by
  unfold State.save at saved
  obtain ⟨valid, saved⟩ := Except.unit_bind_eq_ok.1 saved
  refine ⟨valid, ?_⟩
  generalize tree.bound state.lookup = node at saved ⊢
  simp only at saved
  split at saved
  · next handle shares => exact .inl ⟨handle, shares, (Except.ok.inj saved).symm⟩
  · next unshared =>
    refine .inr ⟨unshared, ?_⟩
    split at saved
    · next old found => exact .inl ⟨old, found, (Except.ok.inj saved).symm⟩
    · next free =>
      exact .inr ⟨free, (Except.ok.inj saved).symm.trans (insert_of_free node free).symm⟩

/-- A removal that succeeds drops the name, inlines the references to it and releases what it pointed
to. -/
theorem remove_cases {next : Nat} (removed : (state.remove address next).1 = .ok after) :
    ∃ handle target, state.lookup address = some handle ∧ state.resolve handle = some target ∧
      after = (((state.unname address).inlineReferences address target next).1.release handle).bindAll ∧
      (state.remove address next).2 =
        ((state.unname address).inlineReferences address target next).2 := by
  unfold State.remove find at removed ⊢
  cases found : state.lookup address with
  | none => simp [found, Address.notFound, fail] at removed; cases removed
  | some handle =>
      cases stored : state.resolve handle with
      | none => simp [found, stored, Address.notFound, fail] at removed; cases removed
      | some target =>
          simp only [found, stored] at removed ⊢
          exact ⟨handle, target, rfl, stored, (Except.ok.inj removed).symm, rfl⟩

/-- A renaming that succeeds moves a name to one that is new. -/
theorem rename_cases {name : String} (renamed : state.rename address name = .ok after) :
    ∃ handle, state.lookup address = some handle ∧ state.lookup { address with name } = none ∧
      after = (((state.unname address).point { address with name } handle).renameReferences address
        name).bindAll := by
  unfold State.rename at renamed
  cases found : state.lookup address with
  | none => simp [found, Address.notFound, fail] at renamed
  | some handle =>
      simp only [found] at renamed
      cases free : state.lookup { address with name } with
      | some other => simp [free, fail] at renamed
      | none =>
          simp only [free, Option.isSome_none, Bool.false_eq_true, if_false] at renamed
          exact ⟨handle, rfl, rfl, (Except.ok.inj renamed).symm⟩

/-- What becomes the active playlist is one that has a name. -/
theorem activate_cases {name : String} (activated : state.activate name = .ok after) :
    ∃ handle, state.lookup ⟨.playlists, name⟩ = some handle ∧
      after = (state.repoint ⟨.playlists, activeName⟩ handle).bindAll := by
  unfold State.activate at activated
  cases found : state.lookup ⟨.playlists, name⟩ with
  | none => simp [found, Address.notFound, fail] at activated
  | some handle =>
      simp only [found] at activated
      exact ⟨handle, rfl, (Except.ok.inj activated).symm⟩

end Steps

section Saving

@[simp] theorem identity_bound (lookup : Address → Option Handle) (tree : Node) :
    (tree.bound lookup).identity = tree.identity := by
  obtain ⟨mark, operator, operands⟩ := tree
  rw [Tree.bound, Tree.relink, Tree.mapNodes_node]
  rfl

/-- A collection that shares its root identity with a tree has a name in the namespace. -/
theorem exists_of_sharing {space : Namespace} {identity : Nat}
    (found : state.sharing space identity = some handle) :
    ∃ name, state.lookup ⟨space, name⟩ = some handle := by
  have member := List.mem_of_find?_eq_some found
  obtain ⟨⟨name, target⟩, entry, same⟩ := List.mem_map.1 member
  cases same
  exact ⟨name, SortedMap.mem_entries_iff.1 entry⟩

theorem validate_of_validate {saveAs : Option Address}
    (valid : state.validate tree saveAs = .ok ()) : tree.validate = .ok () := by
  unfold State.validate at valid
  exact ((Tree.check_eq_ok_iff _ _).1 (Except.unit_bind_eq_ok.1 valid).1).1

/-- The tree that is saved takes the place of one with its identity. -/
theorem WellFormed.replace_sharing (wellFormed : state.WellFormed)
    (shares : state.sharing address.space tree.identity = some handle)
    (valid : tree.validate = .ok ()) :
    let after := ((state.replace handle tree).repoint address handle).bindAll
    state.Redirects after handle tree.shape ∧
      ∀ other, after.lookup other = if other = address then some handle else state.lookup other := by
  intro after
  obtain ⟨name, named⟩ := exists_of_sharing shares
  have there := wellFormed.named named
  have replaced := wellFormed.replace there valid
  have lookups : ∀ other,
      after.lookup other = if other = address then some handle else state.lookup other := by
    intro other
    rw [lookup_bindAll, lookup_repoint, lookup_replace]
  have stays : ¬ ((state.replace handle tree).lookup address = some handle ∧
      ((state.replace handle tree).point address handle).isNamed handle = false) := by
    rintro ⟨-, unnamed⟩
    rw [isNamed_eq_true.2 ⟨address, by rw [lookup_point, if_pos rfl]⟩] at unnamed
    cases unnamed
  have home : ∀ other, (state.replace handle tree).lookup other = some handle →
      other.space = address.space := fun other found =>
    wellFormed.home named other (lookup_replace ▸ found)
  refine ⟨⟨(replaced.repoint (by simp [content_replace there]) address home).bindAll,
    fun other => ?_, ?_, fun different found => ?_⟩, lookups⟩
  · rw [lookups]
    split
    · exact .inr rfl
    · exact .inl rfl
  · rw [content_bindAll, content_repoint, if_neg stays, content_replace there, if_pos rfl]
  · rw [content_bindAll] at found
    have kept := content_of_repoint found
    rwa [content_replace there, if_neg different] at kept

/-- A tree that replaces a collection gets a slot that was empty and the names of the collection, whose
own slot is emptied; links to it follow. -/
theorem Sound.resolve_overwrite (sound : state.Sound) {old : Handle}
    (found : state.lookup address = some old) (tree : Node) :
    ∃ handle, state.resolve handle = none ∧
      (∀ other, (state.overwrite address.space old tree).lookup other =
        if state.lookup other = some old then some handle else state.lookup other) ∧
      ∀ another, (state.overwrite address.space old tree).resolve another =
        if another = old then none
        else (if another = handle then some tree else state.resolve another).map
          (Tree.relink fun mark _ => if mark.link = some old then some handle else mark.link) := by
  have empty := sound.tidy.resolve_allocate_self tree
  have resolves := sound.tidy.resolve_allocate tree
  have names := lookup_allocate state tree
  rw [State.overwrite]
  generalize state.allocate tree = allocation at *
  obtain ⟨new, next⟩ := allocation
  simp only at empty resolves names ⊢
  have different : old ≠ new := by
    rintro rfl
    exact Option.isSome_iff_ne_none.1 (sound.occupied found) empty
  have lookups : ∀ other, ((next.pointAll address.space (next.aliases old address.space) new).rebind
      old new).lookup other =
        if state.lookup other = some old then some new else state.lookup other := by
    rintro ⟨space, name⟩
    rw [lookup_rebind]
    simp only [lookup_pointAll, mem_aliases, names]
    by_cases here : state.lookup ⟨space, name⟩ = some old
    · obtain rfl : space = address.space := sound.separate here found
      rw [if_pos ⟨rfl, here⟩, if_pos here]
    · rw [if_neg here, if_neg]
      rintro ⟨rfl, leads⟩
      exact here leads
  refine ⟨new, empty, fun other => lookup_release.trans (lookups other), fun another => ?_⟩
  have unnamed : ((next.pointAll address.space (next.aliases old address.space) new).rebind old
      new).isNamed old = false := by
    rw [← Bool.not_eq_true, isNamed_eq_true]
    rintro ⟨other, leads⟩
    rw [lookups] at leads
    split at leads
    · exact different (Option.some.inj leads).symm
    · contradiction
  rw [resolve_release, unnamed]
  simp only [and_true, rebind, resolve_mapRoots, resolve_pointAll, resolves]

theorem Sound.overwrite (sound : state.Sound) (address : Address) (old : Handle)
    (valid : tree.validate = .ok ()) : (state.overwrite address.space old tree).Sound := by
  have allocated := sound.allocate valid
  have there : ((state.allocate tree).2.content (state.allocate tree).1).isSome := by
    rw [sound.tidy.content_allocate, if_pos rfl]
    rfl
  have unnamed : ∀ other, (state.allocate tree).2.lookup other = some (state.allocate tree).1 →
      other.space = address.space := fun other leads =>
    absurd (lookup_allocate state tree other ▸ leads) (sound.lookup_ne_allocate tree other)
  have pointed := allocated.pointAll there unnamed
    ((state.allocate tree).2.aliases old address.space)
  exact (pointed.relinked fun node => Tree.shape_relink _ node).release old

/-- A tree that replaces a collection takes over all names of it. -/
theorem WellFormed.overwrite (wellFormed : state.WellFormed) {old : Handle}
    (found : state.lookup address = some old) (valid : tree.validate = .ok ())
    (linked : tree.Linked state.lookup) :
    ∃ handle, state.Redirects (state.overwrite address.space old tree) handle tree.shape ∧
      (∀ other, state.lookup other ≠ some handle) ∧
      ∀ other, (state.overwrite address.space old tree).lookup other =
        if state.lookup other = some old then some handle else state.lookup other := by
  obtain ⟨new, empty, lookups, resolves⟩ := wellFormed.resolve_overwrite found tree
  have occupied : ∀ {other handle}, state.lookup other = some handle → handle ≠ new := by
    rintro other _ leads rfl
    exact Option.isSome_iff_ne_none.1 (wellFormed.occupied leads) empty
  have contents : ∀ another, (state.overwrite address.space old tree).content another =
      if another = old then none
      else if another = new then some tree.shape else state.content another := by
    intro another
    rw [content, resolves, apply_ite (Option.map Tree.shape), Option.map_map]
    rw [show Tree.shape ∘ Tree.relink _ = Tree.shape from funext fun node => Tree.shape_relink _ node]
    rw [apply_ite (Option.map Tree.shape)]
    rfl
  refine ⟨new, ⟨⟨wellFormed.toSound.overwrite address old valid, ?_⟩, fun other => ?_, ?_,
    fun {another content} elsewhere here => ?_⟩, fun other leads => occupied leads rfl, lookups⟩
  · intro handle node stored
    rw [resolves] at stored
    split at stored
    · cases stored
    obtain ⟨before, stood, rfl⟩ := Option.map_eq_some_iff.1 stored
    have linkedBefore : before.Linked state.lookup := by
      split at stood
      · exact Option.some.inj stood ▸ linked
      · exact wellFormed.linked stood
    exact linkedBefore.relink lookups
  · rw [lookups]
    split
    · exact .inr rfl
    · exact .inl rfl
  · rw [contents, if_neg (occupied found).symm, if_pos rfl]
  · rw [contents, if_neg elsewhere] at here
    split at here
    · cases here
    · exact here

/-- A tree that is saved under a name not in use gets a slot of its own. -/
theorem WellFormed.place (wellFormed : state.WellFormed) (free : state.lookup address = none)
    (valid : tree.validate = .ok ()) (linked : tree.Linked state.lookup) :
    ∃ handle, state.Redirects (state.insert address tree) handle tree.shape ∧
      (∀ other, state.lookup other ≠ some handle) ∧
      ∀ other, (state.insert address tree).lookup other =
        if other = address then some handle else state.lookup other := by
  rw [insert_of_free tree free]
  have allocated := wellFormed.allocate valid
  have unused := wellFormed.lookup_ne_allocate tree
  have contents := wellFormed.tidy.content_allocate tree
  have resolves := wellFormed.tidy.resolve_allocate tree
  have names := lookup_allocate state tree
  generalize state.allocate tree = allocation at *
  obtain ⟨handle, next⟩ := allocation
  simp only at allocated unused contents resolves names ⊢
  have lookups : ∀ other, (next.point address handle).lookup other =
      if other = address then some handle else state.lookup other := by
    intro other
    rw [lookup_point, names]
  have sound := allocated.point (by simp [contents]) address
    fun other leads => absurd (names other ▸ leads) (unused other)
  refine ⟨handle, ⟨⟨sound, ?_⟩, fun other => ?_, by simp [contents], fun elsewhere here => ?_⟩,
    unused, lookups⟩
  · intro another node stored reference member target link
    rw [resolve_point, resolves] at stored
    have leads : state.lookup reference.1 = some target := by
      split at stored
      · obtain rfl := Option.some.inj stored
        exact linked reference member target link
      · exact wellFormed.linked stored reference member target link
    rw [lookups, if_neg, leads]
    intro same
    rw [same, free] at leads
    cases leads
  · rw [lookups]
    split
    · exact .inr rfl
    · exact .inl rfl
  · rwa [content_point, contents, if_neg elsewhere] at here

/-- A save that succeeds makes a collection of the tree, to which the name leads and every name of
the collection that is displaced. -/
theorem WellFormed.save (wellFormed : state.WellFormed)
    (saved : state.save address tree = .ok after) :
    state.validate tree (some address) = .ok () ∧
      ∃ handle, state.Redirects after handle tree.shape ∧
        ∀ other, after.lookup other = some handle ↔ other = address ∨
          ∃ old, state.displaced address tree = some old ∧ state.lookup other = some old := by
  obtain ⟨valid, saves⟩ := save_cases saved
  refine ⟨valid, ?_⟩
  have rules : (tree.bound state.lookup).validate = .ok () :=
    Tree.validate_of_shape_eq (Tree.shape_bound _ tree).symm (validate_of_validate valid)
  have linked := Tree.linked_bound state.lookup tree
  rw [displaced]
  rw [← identity_bound state.lookup tree, ← Tree.shape_bound state.lookup tree]
  generalize tree.bound state.lookup = node at *
  rcases saves with ⟨handle, shares, rfl⟩ | ⟨unshared, ⟨old, found, rfl⟩ | ⟨free, rfl⟩⟩
  · obtain ⟨redirects, lookups⟩ := wellFormed.replace_sharing shares rules
    refine ⟨handle, redirects, fun other => ?_⟩
    rw [lookups, shares]
    simp only [Option.some_or, Option.some.injEq, exists_eq_left']
    by_cases same : other = address <;> simp [same]
  · obtain ⟨handle, redirects, unused, lookups⟩ := wellFormed.overwrite found rules linked
    refine ⟨handle, redirects, fun other => ?_⟩
    rw [lookups, unshared, found]
    simp only [Option.none_or, Option.some.injEq, exists_eq_left']
    by_cases same : state.lookup other = some old
    · simp [same]
    · rw [if_neg same]
      refine iff_of_false (unused other) ?_
      rintro (rfl | leads)
      · exact same found
      · exact same leads
  · obtain ⟨handle, redirects, unused, lookups⟩ := wellFormed.place free rules linked
    refine ⟨handle, redirects, fun other => ?_⟩
    rw [lookups, unshared, free]
    by_cases same : other = address
    · simp [same]
    · simp [same, unused other]

end Saving

section Naming

/-- A removal that succeeds drops the name and puts a copy of its collection in place of the
references to it. -/
theorem WellFormed.remove (wellFormed : state.WellFormed) {next : Nat}
    (removed : (state.remove address next).1 = .ok after) :
    ∃ handle target, state.lookup address = some handle ∧ state.content handle = some target ∧
      after.WellFormed ∧
      (∀ other, after.lookup other = if other = address then none else state.lookup other) ∧
      ∀ {another shape}, after.content another = some shape →
        ∃ before, state.content another = some before ∧
          shape = before.substitute (·.inlined address target) := by
  obtain ⟨handle, target, found, stored, rfl, -⟩ := remove_cases removed
  have content := content_of_resolve stored
  have valid := (Tree.validate_shape target).1 (wellFormed.valid content)
  have sound := (((wellFormed.unname address).inlineReferences address valid next).release handle)
  refine ⟨handle, target.shape, found, content, sound.bindAll, fun other => ?_,
    fun {another shape} here => ?_⟩
  · rw [lookup_bindAll, lookup_release, lookup_inlineReferences, lookup_unname]
  · rw [content_bindAll] at here
    have inlined := content_of_release here
    rw [content_inlineReferences, content_unname] at inlined
    obtain ⟨before, was, rfl⟩ := Option.map_eq_some_iff.1 inlined
    exact ⟨before, was, rfl⟩

/-- A renaming that succeeds moves the name and renames the references to it. -/
theorem WellFormed.rename (wellFormed : state.WellFormed) {name : String}
    (renamed : state.rename address name = .ok after) :
    ∃ handle, state.lookup address = some handle ∧
      state.lookup { address with name } = none ∧ after.WellFormed ∧
      (∀ other, after.lookup other =
        if other = { address with name } then some handle
        else if other = address then none else state.lookup other) ∧
      ∀ another, after.content another =
        (state.content another).map (Tree.substitute (·.renamed address name)) := by
  obtain ⟨handle, found, free, rfl⟩ := rename_cases renamed
  have there : ((state.unname address).content handle).isSome := by
    rw [content_unname]
    exact wellFormed.named found
  have home : ∀ other, (state.unname address).lookup other = some handle →
      other.space = address.space := by
    intro other leads
    rw [lookup_unname] at leads
    split at leads
    · cases leads
    · exact wellFormed.home found other leads
  have pointed := (wellFormed.unname address).point there { address with name } home
  refine ⟨handle, found, free, (pointed.renameReferences address name).bindAll, fun other => ?_,
    fun another => ?_⟩
  · rw [lookup_bindAll, lookup_renameReferences, lookup_point, lookup_unname]
  · rw [content_bindAll, content_renameReferences name pointed.valid, content_point, content_unname]

/-- Making a playlist the active one lets one more name lead to it. -/
theorem WellFormed.activate (wellFormed : state.WellFormed) {name : String}
    (activated : state.activate name = .ok after) :
    ∃ handle shape, state.lookup ⟨.playlists, name⟩ = some handle ∧
      state.content handle = some shape ∧ state.Redirects after handle shape ∧
      ∀ other, after.lookup other =
        if other = ⟨.playlists, activeName⟩ then some handle else state.lookup other := by
  obtain ⟨handle, found, rfl⟩ := activate_cases activated
  obtain ⟨shape, content⟩ := Option.isSome_iff_exists.1 (wellFormed.named found)
  have lookups : ∀ other,
      (state.repoint ⟨.playlists, activeName⟩ handle).bindAll.lookup other =
        if other = ⟨.playlists, activeName⟩ then some handle else state.lookup other := by
    intro other
    rw [lookup_bindAll, lookup_repoint]
  have home : ∀ other, state.lookup other = some handle → other.space = .playlists :=
    wellFormed.home found
  have sound := wellFormed.repoint (wellFormed.named found) ⟨.playlists, activeName⟩ home
  refine ⟨handle, shape, found, content, ⟨sound.bindAll, fun other => ?_, ?_, fun _ here => ?_⟩,
    lookups⟩
  · rw [lookups]
    split
    · exact .inr rfl
    · exact .inl rfl
  · rw [content_bindAll, content_repoint, if_neg, content]
    rintro ⟨-, unnamed⟩
    rw [isNamed_eq_true.2 ⟨_, by rw [lookup_point, if_pos rfl]⟩] at unnamed
    cases unnamed
  · rw [content_bindAll] at here
    exact content_of_repoint here

end Naming

end Medley.State
