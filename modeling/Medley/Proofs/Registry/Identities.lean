import Medley.Proofs.Registry.Restoring

/-!
# Identities of stored collections

Two names of a namespace share their collection exactly if the roots have the same identity.  A save
looks for the identity of its tree among the collections of the namespace, so it makes an alias where
it finds one; what is read from a store or copied in place of a reference gets identities that nothing
else has.  So collections of a namespace keep identities of their own through every run
(`Registry.identified_performAll`), as long as the trees that a program saves are made of nodes that
were handed out to it (`Registry.Issues`).
-/

namespace Medley

namespace Fresh

variable {α β : Type}

theorem le_mapM (action : α → Fresh β) (items : List α)
    (grows : ∀ item ∈ items, ∀ next, next ≤ (action item next).2) (next : Nat) :
    next ≤ (items.mapM action next).2 := by
  induction items generalizing next with
  | nil => exact Nat.le_refl next
  | cons item rest ih =>
      rw [List.mapM_cons]
      exact Nat.le_trans (grows item (.head _) next)
        (ih (fun other member => grows other (.tail _ member)) _)

section Renewing

variable {action : α → Fresh β} {old : α → Option Nat} {renewed : β → Option Nat} {items : List α}

/-- Where every result keeps the number of its item or gets the next one, a result has the number of
its item or one that is handed out on the way. -/
theorem mapM_renewed
    (renews : ∀ item ∈ items, ∀ next, next ≤ (action item next).2 ∧
      ∀ number, renewed (action item next).1 = some number →
        old item = some number ∨ number = next ∧ next < (action item next).2)
    {next index number : Nat}
    (here : ((items.mapM action next).1[index]?).bind renewed = some number) :
    (items[index]?).bind old = some number ∨
      next ≤ number ∧ number < (items.mapM action next).2 := by
  induction items generalizing next index with
  | nil => exact nomatch (here : Option.bind none renewed = some number)
  | cons item rest ih =>
      have later := fun other member => renews other (.tail item member)
      have grows := le_mapM action rest (fun other member next => (later other member next).1)
      rw [List.mapM_cons] at here ⊢
      obtain ⟨above, first⟩ := renews item (.head _) next
      cases index with
      | zero =>
          rcases first number here with kept | ⟨rfl, below⟩
          · exact .inl kept
          · exact .inr ⟨Nat.le_refl _, Nat.lt_of_lt_of_le below (grows _)⟩
      | succ index =>
          rcases ih later here with kept | ⟨least, below⟩
          · exact .inl kept
          · exact .inr ⟨Nat.le_trans above least, below⟩

/-- Numbers that are handed out on the way differ from each other. -/
theorem mapM_renewed_inj
    (renews : ∀ item ∈ items, ∀ next, next ≤ (action item next).2 ∧
      ∀ number, renewed (action item next).1 = some number →
        old item = some number ∨ number = next ∧ next < (action item next).2)
    {next : Nat} (bounded : ∀ item ∈ items, ∀ number, old item = some number → number < next)
    {index other number : Nat} (least : next ≤ number)
    (here : ((items.mapM action next).1[index]?).bind renewed = some number)
    (there : ((items.mapM action next).1[other]?).bind renewed = some number) : index = other := by
  induction items generalizing next index other with
  | nil => exact nomatch (here : Option.bind none renewed = some number)
  | cons item rest ih =>
      have later := fun other member => renews other (.tail item member)
      rw [List.mapM_cons] at here there
      obtain ⟨above, first⟩ := renews item (.head _) next
      -- a number of the head is the next one, and those of the rest come after what it has used
      have head : renewed (action item next).1 = some number → number = next ∧
          next < (action item next).2 := fun found =>
        (first number found).resolve_left fun kept =>
          absurd (bounded item (.head _) number kept) (Nat.not_lt.2 least)
      have tail : ∀ {index : Nat}, ((rest.mapM action (action item next).2).1[index]?).bind renewed =
          some number → (action item next).2 ≤ number := by
        intro index found
        rcases mapM_renewed later found with kept | ⟨above, -⟩
        · obtain ⟨slot, member, kept⟩ := Option.bind_eq_some_iff.1 kept
          have known := bounded slot (.tail _ (List.mem_of_getElem? member)) number kept
          exact absurd known (Nat.not_lt.2 least)
        · exact above
      cases index with
      | zero =>
          cases other with
          | zero => rfl
          | succ other =>
              obtain ⟨rfl, below⟩ := head here
              exact absurd (tail there) (Nat.not_le.2 below)
      | succ index =>
          cases other with
          | zero =>
              obtain ⟨rfl, below⟩ := head there
              exact absurd (tail here) (Nat.not_le.2 below)
          | succ other =>
              have bounds : ∀ slot ∈ rest, ∀ number, old slot = some number →
                  number < (action item next).2 := fun slot member number kept =>
                Nat.lt_of_lt_of_le (bounded slot (.tail _ member) number kept) above
              exact congrArg Nat.succ (ih later bounds (tail here) here there)

end Renewing

end Fresh

namespace Tree

variable {α : Type}

@[simp] theorem identity_relink (image : Mark → Operator → Option Handle) (tree : Node) :
    (tree.relink image).identity = tree.identity := by
  obtain ⟨mark, operator, operands⟩ := tree
  rw [relink, mapNodes_node]
  rfl

@[simp] theorem identity_renameIn (address : Address) (name : String) (tree : Node) :
    (State.renameIn address name tree).identity = tree.identity := by
  obtain ⟨mark, operator, operands⟩ := tree
  rw [State.renameIn, mapNodes_node]
  rfl

/-- Numbering a tree starts at its root. -/
theorem identity_number (tree : Tree α) (next : Nat) : (tree.number next).1.identity = next := by
  obtain ⟨mark, operator, operands⟩ := tree
  rw [number_node]
  rfl

theorem lt_number (tree : Tree α) (next : Nat) : next < (tree.number next).2 := by
  induction tree using Tree.induction generalizing next with
  | node mark operator operands ih =>
      have count : (number (.node mark operator operands) next).2 =
          ((operands.mapM number) (next + 1)).2 := by
        simp only [number, fold_node, List.mapM_map]
        rfl
      rw [count]
      exact Fresh.le_mapM number operands
        (fun operand member next => Nat.le_of_lt (ih operand member next)) _

theorem le_inlineIn (address : Address) (target tree : Node) (next : Nat) :
    next ≤ (State.inlineIn address target tree next).2 := by
  obtain ⟨_, -, -, grows, -⟩ := inlines_inlineIn address target tree next
  exact grows

/-- A root is replaced only by a copy on new nodes. -/
theorem identity_inlineIn (address : Address) (target tree : Node) (next : Nat) :
    (State.inlineIn address target tree next).1.identity = tree.identity ∨
      (State.inlineIn address target tree next).1.identity = next ∧
        next < (State.inlineIn address target tree next).2 := by
  by_cases found : tree.operator.target? = some address
  · rw [inlineIn_of_target found]
    exact .inr ⟨target.identity_number next, target.lt_number next⟩
  · obtain ⟨mark, operator, operands⟩ := tree
    rw [inlineIn_of_ne found, inlineBelow_node]
    exact .inl rfl

end Tree

/-- Whether the tree that a request saves, if any, has a root that was handed out. -/
def Request.Issued (next : Nat) : Request → Prop
  | .save _ tree => tree.identity < next
  | _ => True

namespace State

/-- The identity of the root of the collection at a handle. -/
def identityAt (state : State) (handle : Handle) : Option Nat :=
  (state.resolve handle).map Tree.identity

/-- Stored roots have identities that have been handed out, and those of a namespace differ. -/
structure Identified (state : State) (next : Nat) : Prop where
  below : ∀ {handle identity}, state.identityAt handle = some identity → identity < next
  apart : ∀ {left right : Address} {handle another identity}, left.space = right.space →
    state.lookup left = some handle → state.lookup right = some another →
    state.identityAt handle = some identity → state.identityAt another = some identity →
    handle = another

variable {state after : State} {address : Address} {handle another : Handle} {node tree : Node}
  {next later : Nat}

section Observing

theorem identityAt_of_resolve (found : state.resolve handle = some node) :
    state.identityAt handle = some node.identity := by
  rw [identityAt, found]
  rfl

theorem identityAt_eq (state : State) (handle : Handle) :
    state.identityAt handle = (state.slots[handle.index]?).bind (Option.map Tree.identity) := by
  rw [identityAt, resolve]
  cases state.slots[handle.index]? <;> rfl

theorem identityAt_mapRoots {image : Node → Node}
    (same : ∀ node, (image node).identity = node.identity) (state : State) (handle : Handle) :
    (state.mapRoots image).identityAt handle = state.identityAt handle := by
  rw [identityAt, resolve_mapRoots, Option.map_map, identityAt]
  exact congrArg (Option.map · _) (funext same)

@[simp] theorem identityAt_bindAll (state : State) (handle : Handle) :
    state.bindAll.identityAt handle = state.identityAt handle :=
  identityAt_mapRoots (fun node => Tree.identity_relink _ node) state handle

@[simp] theorem identityAt_unbindAll (state : State) (handle : Handle) :
    state.unbindAll.identityAt handle = state.identityAt handle :=
  identityAt_mapRoots (fun node => Tree.identity_relink _ node) state handle

theorem identityAt_of_repoint {identity : Nat}
    (found : (state.repoint address handle).identityAt another = some identity) :
    state.identityAt another = some identity := map_resolve_of_repoint found

theorem identityAt_of_release {identity : Nat}
    (found : (state.release handle).identityAt another = some identity) :
    state.identityAt another = some identity := map_resolve_of_release found

/-- A handle that a tree shares its identity with holds it; without one no collection of the namespace
does. -/
theorem identityAt_of_sharing {space : Namespace} {identity : Nat}
    (found : state.sharing space identity = some handle) :
    state.identityAt handle = some identity := by
  have same := List.find?_some found
  exact beq_iff_eq.1 same

theorem identityAt_ne_of_sharing {space : Namespace} {identity : Nat}
    (none : state.sharing space identity = none) {name : String}
    (leads : state.lookup ⟨space, name⟩ = some handle) : state.identityAt handle ≠ some identity := by
  intro same
  have member : handle ∈ (state.names space).values :=
    List.mem_map.2 ⟨(name, handle), SortedMap.mem_entries_iff.2 leads, rfl⟩
  exact List.find?_eq_none.1 none handle member (beq_iff_eq.2 same)

/-- A slot with the references of its collection to an address replaced. -/
def inlineSlot (address : Address) (target : Node) (slot : Option Node) : Fresh (Option Node) :=
  match slot with
  | some root => return some (← inlineIn address target root)
  | none => return none

theorem inlineSlot_renews (address : Address) (target : Node) (slot : Option Node) (next : Nat) :
    next ≤ (inlineSlot address target slot next).2 ∧
      ∀ number, (inlineSlot address target slot next).1.map Tree.identity = some number →
        slot.map Tree.identity = some number ∨
          number = next ∧ next < (inlineSlot address target slot next).2 := by
  cases slot with
  | none => exact ⟨Nat.le_refl next, fun number found => .inl found⟩
  | some root =>
      refine ⟨Tree.le_inlineIn address target root next, fun number found => ?_⟩
      obtain rfl : (inlineIn address target root next).1.identity = number := Option.some.inj found
      exact (Tree.identity_inlineIn address target root next).imp_left fun same =>
        congrArg some same.symm

theorem le_inlineReferences (state : State) (address : Address) (target : Node) (next : Nat) :
    next ≤ (state.inlineReferences address target next).2 :=
  Fresh.le_mapM (inlineSlot address target) state.slots
    (fun slot _ next => (inlineSlot_renews address target slot next).1) next

end Observing

namespace Identified

theorem empty (next : Nat) : ({} : State).Identified next where
  below found := by simp [identityAt, resolve] at found
  apart {left _ _ _ _} _ leads := by
    obtain ⟨space, name⟩ := left
    cases space <;> cases leads

theorem mono (identified : state.Identified next) (grows : next ≤ later) :
    state.Identified later where
  below found := Nat.lt_of_lt_of_le (identified.below found) grows
  apart := identified.apart

/-- Names lead where names of the namespace led before, and roots keep their identities or get new
ones that differ. -/
theorem renewed (identified : state.Identified next)
    (names : ∀ {address handle}, after.lookup address = some handle →
      ∃ name, state.lookup ⟨address.space, name⟩ = some handle)
    (renews : ∀ {handle identity}, after.identityAt handle = some identity →
      state.identityAt handle = some identity ∨ next ≤ identity ∧ identity < later)
    (distinct : ∀ {handle another identity}, next ≤ identity →
      after.identityAt handle = some identity → after.identityAt another = some identity →
      handle = another)
    (grows : next ≤ later) : after.Identified later where
  below found := by
    rcases renews found with kept | ⟨-, below⟩
    · exact Nat.lt_of_lt_of_le (identified.below kept) grows
    · exact below
  apart {left right handle another identity} same here there first second := by
    by_cases isNew : next ≤ identity
    · exact distinct isNew first second
    · obtain ⟨name, here⟩ := names here
      obtain ⟨name', there⟩ := names there
      have first := (renews first).resolve_right fun both => isNew both.1
      have second := (renews second).resolve_right fun both => isNew both.1
      have spaces : (⟨left.space, name⟩ : Address).space = (⟨right.space, name'⟩ : Address).space :=
        same
      exact identified.apart spaces here there first second

/-- Names lead where names of the namespace led before, and roots keep their identities. -/
theorem kept (identified : state.Identified next)
    (names : ∀ {address handle}, after.lookup address = some handle →
      ∃ name, state.lookup ⟨address.space, name⟩ = some handle)
    (identities : ∀ {handle identity}, after.identityAt handle = some identity →
      state.identityAt handle = some identity) : after.Identified next :=
  identified.renewed names (fun found => .inl (identities found))
    (fun isNew found _ => absurd (identified.below (identities found)) (Nat.not_lt.2 isNew))
    (Nat.le_refl next)

/-- A collection is put into a slot, with an identity that no other one of the namespace has. -/
theorem placed (identified : state.Identified next) (slot : Handle) {space : Namespace}
    {identity : Nat}
    (unshared : ∀ {name handle}, state.lookup ⟨space, name⟩ = some handle →
      state.identityAt handle ≠ some identity)
    (names : ∀ {address handle}, after.lookup address = some handle →
      handle = slot ∧ address.space = space ∨
        handle ≠ slot ∧ state.lookup address = some handle)
    (here : ∀ {number}, after.identityAt slot = some number → number = identity)
    (elsewhere : ∀ {handle number}, handle ≠ slot →
      after.identityAt handle = some number → state.identityAt handle = some number)
    (grows : next ≤ later) (issued : identity < later) : after.Identified later where
  below {handle number} found := by
    by_cases same : handle = slot
    · exact here (same ▸ found) ▸ issued
    · exact Nat.lt_of_lt_of_le (identified.below (elsewhere same found)) grows
  apart {left right first second number} same leads leads' found found' := by
    rcases names leads with ⟨rfl, home⟩ | ⟨other, was⟩
    · rcases names leads' with ⟨rfl, -⟩ | ⟨other', was'⟩
      · rfl
      · rw [here found] at found'
        obtain rfl : right.space = space := same.symm.trans home
        exact absurd (elsewhere other' found') (unshared was')
    · rcases names leads' with ⟨rfl, home⟩ | ⟨other', was'⟩
      · rw [here found'] at found
        obtain rfl : left.space = space := same.trans home
        exact absurd (elsewhere other found) (unshared was)
      · exact identified.apart same was was' (elsewhere other found) (elsewhere other' found')

theorem bindAll (identified : state.Identified next) : state.bindAll.Identified next :=
  identified.kept (fun {address _} leads => ⟨address.name, by rwa [lookup_bindAll] at leads⟩)
    (fun found => identityAt_bindAll state _ ▸ found)

theorem unbindAll (identified : state.Identified next) : state.unbindAll.Identified next :=
  identified.kept (fun {address _} leads => ⟨address.name, by rwa [lookup_unbindAll] at leads⟩)
    (fun found => identityAt_unbindAll state _ ▸ found)

section Changes

/-- A collection that is put under a name differs in identity from all others of the namespace. -/
theorem insert (identified : state.Identified next) (sound : state.Sound) (address : Address)
    (unshared : ∀ {name handle}, state.lookup ⟨address.space, name⟩ = some handle →
      state.identityAt handle ≠ some node.identity)
    (grows : next ≤ later) (issued : node.identity < later) :
    (state.insert address node).Identified later := by
  have unused := sound.lookup_ne_allocate node
  have resolves := sound.tidy.resolve_allocate node
  refine identified.placed (state.allocate node).1 unshared (fun {other another} leads => ?_)
    (fun {number} here => ?_) (fun {another number} elsewhere there => ?_) grows issued
  · rw [lookup_insert] at leads
    split at leads
    · next same => exact .inl ⟨(Option.some.inj leads).symm, by rw [same]⟩
    · exact .inr ⟨fun same => unused other (same ▸ leads), leads⟩
  · have here : (state.allocate node).2.identityAt (state.allocate node).1 = some number :=
      identityAt_of_repoint here
    rw [identityAt, resolves, if_pos rfl] at here
    exact (Option.some.inj here).symm
  · have there : (state.allocate node).2.identityAt another = some number :=
      identityAt_of_repoint there
    rwa [identityAt, resolves, if_neg elsewhere] at there

/-- A collection that takes over the names of another one keeps the identities of the namespace apart. -/
theorem overwrite (identified : state.Identified next) (sound : state.Sound) {old : Handle}
    (found : state.lookup address = some old)
    (unshared : ∀ {name handle}, state.lookup ⟨address.space, name⟩ = some handle →
      state.identityAt handle ≠ some node.identity)
    (issued : node.identity < next) : (state.overwrite address.space old node).Identified next := by
  obtain ⟨handle, empty, lookups, resolves⟩ := sound.resolve_overwrite found node
  refine identified.placed handle unshared (fun {other another} leads => ?_)
    (fun {number} here => ?_) (fun {another number} elsewhere there => ?_) (Nat.le_refl next) issued
  · rw [lookups] at leads
    split at leads
    · next same =>
      cases leads
      exact .inl ⟨rfl, sound.separate same found⟩
    · refine .inr ⟨?_, leads⟩
      rintro rfl
      exact Option.isSome_iff_ne_none.1 (sound.occupied leads) empty
  · rw [identityAt, resolves] at here
    split at here
    · cases here
    · simpa using here.symm
  · rw [identityAt, resolves, if_neg elsewhere] at there
    split at there
    · cases there
    · rw [Option.map_map] at there
      rw [identityAt, ← there]
      exact congrArg (Option.map · _) (funext fun node => (Tree.identity_relink _ node).symm)

/-- A tree that is saved has an identity of the namespace and becomes an alias, or it has an identity
of its own there. -/
theorem save (identified : state.Identified next) (sound : state.Sound)
    (issued : tree.identity < next) (saved : state.save address tree = .ok after) :
    after.Identified next := by
  obtain ⟨-, saves⟩ := save_cases saved
  rw [← identity_bound state.lookup tree] at issued
  generalize tree.bound state.lookup = node at *
  rcases saves with ⟨handle, shares, rfl⟩ | ⟨unshared, ⟨old, found, rfl⟩ | ⟨-, rfl⟩⟩
  · obtain ⟨name, named⟩ := exists_of_sharing shares
    have there := sound.occupied named
    refine Identified.bindAll (identified.kept (fun {other another} leads => ?_)
      fun {another number} found => ?_)
    · rw [lookup_repoint, lookup_replace] at leads
      split at leads
      · next same =>
        cases leads
        exact ⟨name, same ▸ named⟩
      · exact ⟨other.name, leads⟩
    · have found := identityAt_of_repoint found
      rw [identityAt, resolve_replace there] at found
      split at found
      · next same => rw [same, identityAt_of_sharing shares, ← found, Option.map_some]
      · exact found
  · exact identified.overwrite sound found (identityAt_ne_of_sharing unshared) issued
  · exact identified.insert sound address (identityAt_ne_of_sharing unshared) (Nat.le_refl next)
      issued

theorem inlineReferences (identified : state.Identified next) (address : Address) (target : Node) :
    (state.inlineReferences address target next).1.Identified
      (state.inlineReferences address target next).2 := by
  have slots : (state.inlineReferences address target next).1.slots =
      (state.slots.mapM (inlineSlot address target) next).1 := rfl
  have count : (state.inlineReferences address target next).2 =
      (state.slots.mapM (inlineSlot address target) next).2 := rfl
  have renews : ∀ slot ∈ state.slots, ∀ next, _ := fun slot _ next =>
    inlineSlot_renews address target slot next
  have bounded : ∀ slot ∈ state.slots, ∀ number, slot.map Tree.identity = some number →
      number < next := by
    intro slot member number same
    obtain ⟨index, there⟩ := List.mem_iff_getElem?.1 member
    have found : state.identityAt ⟨index⟩ = some number := by
      rw [identityAt_eq, there]
      exact same
    exact identified.below found
  refine identified.renewed (fun {other another} leads => ⟨other.name, ?_⟩)
    (fun {handle number} here => ?_) (fun {handle another number} isNew here there => ?_) ?_
  · rwa [lookup_inlineReferences] at leads
  · rw [identityAt_eq, slots] at here
    rw [identityAt_eq, count]
    exact Fresh.mapM_renewed renews here
  · rw [identityAt_eq, slots] at here there
    exact congrArg Handle.mk (Fresh.mapM_renewed_inj renews bounded isNew here there)
  · exact state.le_inlineReferences address target next

/-- A removal copies a tree in place of roots that refer to it, each copy on new nodes. -/
theorem remove (identified : state.Identified next)
    (removed : (state.remove address next).1 = .ok after) :
    after.Identified (state.remove address next).2 := by
  obtain ⟨handle, target, -, -, rfl, count⟩ := remove_cases removed
  have unnamed : (state.unname address).Identified next := by
    refine identified.kept (fun {other another} leads => ⟨other.name, ?_⟩) fun {another number} here => ?_
    · rw [lookup_unname] at leads
      split at leads
      · cases leads
      · exact leads
    · rwa [identityAt, resolve_unname] at here
  have inlined := unnamed.inlineReferences address target
  rw [count]
  refine Identified.bindAll (inlined.kept (fun {other another} leads => ⟨other.name, ?_⟩)
    identityAt_of_release)
  rwa [lookup_release] at leads

theorem rename (identified : state.Identified next) {name : String}
    (renamed : state.rename address name = .ok after) : after.Identified next := by
  obtain ⟨handle, found, -, rfl⟩ := rename_cases renamed
  refine Identified.bindAll (identified.kept (fun {other another} leads => ?_)
    fun {another number} here => ?_)
  · rw [lookup_renameReferences, lookup_point, lookup_unname] at leads
    split at leads
    · next same =>
      cases leads
      exact ⟨address.name, same ▸ found⟩
    · split at leads
      · cases leads
      · exact ⟨other.name, leads⟩
  · rw [renameReferences, identityAt_mapRoots fun node => Tree.identity_renameIn ..] at here
    rwa [identityAt, resolve_point, resolve_unname] at here

/-- The active playlist is one of the playlists. -/
theorem pointActive (identified : state.Identified next) {name : String}
    (found : state.lookup ⟨.playlists, name⟩ = some handle) :
    (state.point ⟨.playlists, activeName⟩ handle).Identified next := by
  refine identified.kept (fun {other another} leads => ?_) fun {another number} here => ?_
  · rw [lookup_point] at leads
    split at leads
    · next same =>
      cases leads
      exact ⟨name, same ▸ found⟩
    · exact ⟨other.name, leads⟩
  · rwa [identityAt, resolve_point] at here

theorem activate (identified : state.Identified next) {name : String}
    (activated : state.activate name = .ok after) : after.Identified next := by
  obtain ⟨handle, found, rfl⟩ := activate_cases activated
  have pointed := identified.pointActive found
  refine Identified.bindAll (pointed.kept (fun {other another} leads => ⟨other.name, ?_⟩)
    fun {another number} here => ?_)
  · rw [lookup_repoint] at leads
    rwa [lookup_point]
  · have here := identityAt_of_repoint here
    rwa [identityAt, resolve_point]

end Changes

section Taking

theorem clear (identified : state.Identified next) (space : Namespace) :
    (state.clear space).Identified next := by
  have dropped : (state.setNames space ∅).Identified next := by
    refine identified.kept (fun {address handle} leads => ⟨address.name, ?_⟩)
      fun {handle number} here => ?_
    · rw [lookup_setNames] at leads
      split at leads
      · cases leads
      · exact leads
    · rwa [identityAt, resolve_congr (slots_setNames ..)] at here
  rw [State.clear]
  generalize state.setNames space ∅ = cleared at dropped
  generalize (state.names space).values = handles
  induction handles generalizing cleared with
  | nil => exact dropped
  | cons handle rest ih =>
      refine ih _ (dropped.kept (fun {address _} leads => ⟨address.name, ?_⟩) identityAt_of_release)
      rwa [lookup_release] at leads

/-- A collection on a new root differs from all others. -/
theorem insert_new (identified : state.Identified next) (sound : state.Sound) (address : Address)
    (isNew : node.identity = next) (grows : next < later) :
    (state.insert address node).Identified later :=
  identified.insert sound address
    (fun _ same => absurd (isNew ▸ identified.below same) (Nat.lt_irrefl next)) (Nat.le_of_lt grows)
    (isNew ▸ grows)

end Taking

end Identified

/-- A request for nodes, or for a change that saves nodes that were made before, keeps identities
apart. -/
theorem Identified.apply (identified : state.Identified next) (sound : state.Sound)
    {request : Request} (issued : request.Issued next)
    (applied : (state.apply request next).1 = .ok after) :
    after.Identified (state.apply request next).2 := by
  cases request with
  | create count => exact Except.ok.inj applied ▸ identified.mono (Nat.le_add_right next count)
  | save address tree => exact identified.save sound issued applied
  | remove address => exact identified.remove applied
  | rename address name => exact identified.rename applied
  | activate name => exact identified.activate applied

/-- Identities are not taken back by changes that fail either. -/
theorem le_apply (state : State) (request : Request) (next : Nat) :
    next ≤ (state.apply request next).2 := by
  cases request with
  | create count => exact Nat.le_add_right next count
  | save address tree => exact Nat.le_refl next
  | remove address =>
      show next ≤ (state.remove address next).2
      unfold State.remove
      cases state.find address with
      | error error => exact Nat.le_refl next
      | ok found => exact (state.unname address).le_inlineReferences address found.2 next
  | rename address name => exact Nat.le_refl next
  | activate name => exact Nat.le_refl next

end State

namespace Registry

variable {σ : Type} [RecordStore σ] {registry : Registry σ}

section Counting

variable (registry : Registry σ)

theorem nextIdentity_persist (spaces : List Namespace) :
    ((persist spaces).run registry).2.nextIdentity = registry.nextIdentity := by
  rw [persist_run]
  split <;> rfl

theorem nextIdentity_serve (request : Request) :
    (registry.serve request).nextIdentity =
      (registry.state.apply request registry.nextIdentity).2 := by
  rcases registry.serve_inversion request with ⟨_, _, _, _, -, -, same⟩ | ⟨-, _, same⟩
  · rw [same]
  · rw [same]

theorem nextIdentity_sync :
    ((sync : Call σ Unit).run registry).2.nextIdentity = registry.nextIdentity := by
  rw [sync, get_bind_run]
  cases RecordStore.isPersistent registry.store with
  | false => rfl
  | true =>
      cases registry.isPersisting with
      | false => rfl
      | true =>
          have kept := nextIdentity_persist registry Namespace.all
          simp only [if_true, bind_run]
          cases ((persist Namespace.all).run registry).1 <;> exact kept

end Counting

/-- Stored roots have identities that the registry has handed out, and those of a namespace differ. -/
abbrev Identified (registry : Registry σ) : Prop := registry.state.Identified registry.nextIdentity

theorem identified_serve (identified : registry.Identified) (sound : registry.state.Sound)
    {request : Request} (issued : request.Issued registry.nextIdentity) :
    (registry.serve request).Identified := by
  rw [Identified, nextIdentity_serve]
  rcases registry.serve_cases request with ⟨state, applied, -, same⟩ | ⟨-, same⟩
  · exact same ▸ identified.apply sound issued applied
  · exact same ▸ identified.mono (registry.state.le_apply request _)

section Restoring

theorem identified_insertAll {state : State} {next : Nat} (identified : state.Identified next)
    (sound : state.Sound) {space : Namespace} {trees : List (String × Shape)}
    (valid : ∀ entry ∈ trees, entry.2.validate = .ok ()) :
    (insertAll space trees state next).1.Identified (insertAll space trees state next).2 := by
  induction trees generalizing state next with
  | nil => exact identified
  | cons entry rest ih =>
      obtain ⟨name, shape⟩ := entry
      rw [insertAll_cons]
      have rules := Tree.validate_of_shape_eq (Tree.shape_number shape next).symm (valid _ (.head _))
      exact ih (identified.insert_new sound ⟨space, name⟩ (shape.identity_number next)
        (shape.lt_number next)) (sound.insert ⟨space, name⟩ rules)
        fun entry member => valid entry (.tail _ member)

theorem identified_activateDefault {state : State} {next : Nat}
    (identified : state.Identified next) (created : Bool) :
    (activateDefault created state next).1.2.Identified (activateDefault created state next).2 := by
  rw [activateDefault]
  cases state.lookup ⟨.playlists, activeName⟩ with
  | some _ => exact identified
  | none =>
      cases leads : state.lookup ⟨.playlists, defaultPlaylist⟩ with
      | none => exact identified
      | some handle => exact identified.pointActive leads

theorem identified_createDefault {state : State} {next : Nat} (identified : state.Identified next)
    (sound : state.Sound) :
    (createDefault state next).1.2.Identified (createDefault state next).2 := by
  unfold createDefault
  by_cases there : (state.lookup ⟨.playlists, defaultPlaylist⟩).isSome
  · rw [if_pos there]
    exact identified_activateDefault identified false
  · rw [if_neg there]
    have isNew : Tree.identity (.leaf ⟨next, none⟩ { kind := .list .list } : Node) = next := rfl
    have made := identified.insert_new sound ⟨.playlists, defaultPlaylist⟩ isNew (Nat.lt_succ_self next)
    exact identified_activateDefault made true

theorem identified_restoreNamespace (identified : registry.Identified)
    (sound : registry.state.Sound) (space : Namespace) :
    ((restoreNamespace space).run registry).2.Identified := by
  rw [restoreNamespace_run]
  split
  · next trees reads =>
    exact identified_insertAll (identified.clear space) (sound.clear space)
      (validate_of_readNamespace reads)
  · exact identified

theorem identified_restoreActive (identified : registry.Identified) :
    (restoreActive.run registry).2.Identified := by
  rw [restoreActive, modify_run]
  split
  · exact identified
  · exact identified
  · split
    · next handle leads => exact identified.pointActive leads
    · exact identified

theorem nextIdentity_linkAll (registry : Registry σ) (state : State) (persistence : Persistence)
    (created : Bool) :
    ((linkAll persistence created state).run registry).2.nextIdentity = registry.nextIdentity := by
  cases created with
  | false => rfl
  | true =>
      cases persistence with
      | deferred => rfl
      | immediate => exact nextIdentity_persist (registry.withState state.bindAll) [.playlists]

theorem identified_settle (identified : registry.Identified) (sound : registry.state.Sound) :
    ((settle : Call σ Unit).run registry).2.Identified := by
  rw [Identified, state_settle, settle, get_bind_run]
  cases registry.config.createDefaultPlaylist with
  | false =>
      have count := nextIdentity_linkAll registry registry.state registry.config.persistence false
      exact (congrArg (State.Identified _) count).mpr identified.bindAll
  | true =>
      let created := createDefault registry.state registry.nextIdentity
      have made : created.1.2.Identified created.2 := identified_createDefault identified sound
      have count := nextIdentity_linkAll { registry with nextIdentity := created.2 } created.1.2
        registry.config.persistence created.1.1
      exact (congrArg (State.Identified _) count).mpr made.bindAll

/-- Whatever is in the store, what is taken over from it is on new nodes. -/
theorem identified_restore (identified : registry.Identified) (sound : registry.state.Sound) :
    ((restore : Call σ Unit).run registry).2.Identified := by
  have soundFirst := registry.sound_restoreNamespace sound .collections
  have identifiedFirst := identified_restoreNamespace identified sound .collections
  have soundSecond := sound_restoreNamespace _ soundFirst .playlists
  have identifiedSecond := identified_restoreNamespace identifiedFirst soundFirst .playlists
  rw [restore_run]
  split
  · exact identified_settle (identified_restoreActive identifiedSecond)
      (sound_restoreActive _ soundSecond)
  · exact identified_settle identifiedSecond soundSecond

end Restoring

section Operations

/-- Whether the tree that an operation saves, if any, has a root that was handed out. -/
def Operation.Issued (next : Nat) : Operation σ → Prop
  | .serve request => request.Issued next
  | _ => True

/-- Whether each tree that operations save has a root that was handed out before. -/
def Issues (registry : Registry σ) : List (Operation σ) → Prop
  | [] => True
  | operation :: rest =>
      operation.Issued registry.nextIdentity ∧ (registry.perform operation).Issues rest

theorem identified_perform (identified : registry.Identified) (sound : registry.state.Sound)
    {operation : Operation σ} (issued : operation.Issued registry.nextIdentity) :
    (registry.perform operation).Identified := by
  cases operation with
  | serve request => exact identified_serve identified sound issued
  | bindAll => exact identified.bindAll
  | unbindAll => exact identified.unbindAll
  | restore => exact identified_restore identified sound
  | sync =>
      exact (congrArg₂ State.Identified registry.state_sync registry.nextIdentity_sync).mpr identified
  | edit store => exact identified

/-- From the identities of what is stored on, a run keeps those of a namespace apart. -/
theorem identified_performAll (identified : registry.Identified)
    (wellFormed : registry.state.WellFormed) {operations : List (Operation σ)}
    (issues : registry.Issues operations) : (registry.performAll operations).Identified := by
  induction operations generalizing registry with
  | nil => exact identified
  | cons operation rest ih =>
      exact ih (identified_perform identified wellFormed.toSound issues.1)
        (wellFormed_perform wellFormed operation) issues.2

end Operations

end Registry

end Medley
