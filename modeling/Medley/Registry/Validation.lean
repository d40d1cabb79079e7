import Medley.Registry.State

/-!
# Validation against stored collections

A collection is valid if every node keeps the rules of its kind and every reference names a stored
collection.  If it is to be saved under a name, it may not refer to that name, nor to a collection
that reaches the name through references, and only lists may become playlists.  Names that share a
collection count as one.
-/

namespace Medley

/-- The address that a collection is about to be saved under, and what it points to now. -/
structure SaveTarget where
  address : Address
  handle : Option Handle

/-- The target of saving at an address. -/
def State.saveTarget (state : State) (address : Address) : SaveTarget :=
  ⟨address, state.lookup address⟩

/-- Whether a reference means the target: by its address, or as an alias of it. -/
def SaveTarget.isMeantBy (target : SaveTarget) (address : Address) (handle : Option Handle) : Bool :=
  address == target.address || (handle.isSome && handle == target.handle)

namespace State

/-- The slots that hold a collection and are not among the handles given. -/
def unvisited (state : State) (visited : List Handle) : List Nat :=
  (List.range state.slots.length).filter fun index =>
    (state.resolve ⟨index⟩).isSome && !visited.contains ⟨index⟩

theorem length_unvisited_le (state : State) (visited : List Handle) :
    (state.unvisited visited).length ≤ state.slots.length :=
  Nat.le_trans (List.length_filter_le ..) (Nat.le_of_eq List.length_range)

theorem unvisited_cons_lt {state : State} {visited : List Handle} {handle : Handle}
    (isNew : handle ∉ visited) (occupied : (state.resolve handle).isSome = true) :
    (state.unvisited (handle :: visited)).length < (state.unvisited visited).length := by
  have bound : handle.index < state.slots.length := by
    rcases Nat.lt_or_ge handle.index state.slots.length with below | above
    · exact below
    · simp [resolve, List.getElem?_eq_none above] at occupied
  have member : handle.index ∈ state.unvisited visited := by
    simp [unvisited, bound, occupied, isNew]
  have smaller : state.unvisited (handle :: visited) =
      (state.unvisited visited).filter fun index => !((⟨index⟩ : Handle) == handle) := by
    simp only [unvisited, List.filter_filter]
    congr 1
    funext index
    simp only [List.contains_cons, Bool.not_or]
    cases (state.resolve ⟨index⟩).isSome <;> cases visited.contains ⟨index⟩ <;>
      cases (⟨index⟩ : Handle) == handle <;> rfl
  rw [smaller]
  refine Nat.lt_of_le_of_ne (List.length_filter_le ..) fun equal => ?_
  have all := List.length_filter_eq_length_iff.1 equal handle.index member
  simp at all

/-- Whether a chain of references starts at one of those given, goes on in the collections that they
lead to, and ends at the target.  Collections already visited are not entered again. -/
def reachesFrom (state : State) (target : SaveTarget) (visited : List Handle) :
    List (Address × Option Handle) → Bool
  | [] => false
  | (address, link) :: rest =>
      let handle := state.follow link address
      if target.isMeantBy address handle then true
      else match handle with
        | none => reachesFrom state target visited rest
        | some handle =>
            match _found : state.resolve handle with
            | none => reachesFrom state target visited rest
            | some tree =>
                if _isNew : handle ∉ visited then
                  reachesFrom state target (handle :: visited) (tree.references ++ rest)
                else reachesFrom state target visited rest
  termination_by references => ((state.unvisited visited).length, references.length)
  decreasing_by
    · exact .right _ (by simp)
    · exact .right _ (by simp)
    · exact .left _ _ (unvisited_cons_lt _isNew (by simp [_found]))
    · exact .right _ (by simp)

/-- Whether a tree leads to an address through references, following stored collections. -/
def reaches (state : State) (tree : Node) (address : Address) : Bool :=
  state.reachesFrom (state.saveTarget address) [] tree.references

/-- Check one reference: it may not mean the target, it must name a stored collection and not be
linked to another, and that collection may not reach the target. -/
def checkReference (state : State) (target : Option SaveTarget) (link : Option Handle)
    (address : Address) : Except Error Unit :=
  let dangling : Cause := .danglingReference address.name address.space.name
  let handle := state.lookup address
  if target.any fun target => target.isMeantBy address handle then
    fail (.selfReference address.name address.space.name)
  else match handle with
    | none => fail dangling
    | some handle =>
        if link.any (· != handle) then fail dangling
        else match target with
          | none => .ok ()
          | some target =>
              match state.resolve handle with
              | none => fail dangling
              | some tree =>
                  if state.reachesFrom target [handle] tree.references then
                    fail (.cyclicReference target.address.name target.address.space.name)
                  else .ok ()

/-- Check a tree against the stored collections, and whether it may be saved at an address. -/
def validate (state : State) (tree : Node) (saveAs : Option Address) : Except Error Unit := do
  tree.check fun mark => state.checkReference (saveAs.map state.saveTarget) mark.link
  match saveAs with
  | some ⟨.playlists, name⟩ =>
      if tree.kind.isList then pure () else fail (.notAPlaylist name tree.kind.name)
  | _ => pure ()

end State

end Medley
