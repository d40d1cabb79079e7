import Mathlib.Logic.Relation
import Medley.Proofs.Registry.Changes

/-!
# Chains of references

A collection calls another if a reference in it leads there.  In a well-formed state links and names
agree, so calls can be read off names and contents (`State.WellFormed.calls_iff`), and the search for
a target in `State.reachesFrom` finds one exactly if some chain of references ends in a mention of it
(`State.reachesFrom_eq_true`).
-/

namespace Medley.State

variable {state : State} {address other : Address} {handle another source target : Handle}

/-- A reference in one collection leads to another. -/
def Calls (state : State) (source target : Handle) : Prop :=
  ∃ tree, state.resolve source = some tree ∧
    ∃ reference ∈ tree.references, state.follow reference.2 reference.1 = some target

/-- No collection leads to itself. -/
def Acyclic (state : State) : Prop := ∀ handle, ¬ Relation.TransGen state.Calls handle handle

/-- Every reference in a stored collection names one. -/
def Closed (state : State) : Prop :=
  ∀ handle shape, state.content handle = some shape →
    ∀ address ∈ shape.addresses, (state.lookup address).isSome

/-- The addresses that some addresses lead to: themselves, and those in the collections that they
lead to. -/
inductive Mentions (state : State) (addresses : List Address) : Address → Prop where
  | here {address : Address} (member : address ∈ addresses) : Mentions state addresses address
  | further {address other : Address} {handle : Handle} {shape : Shape}
      (before : Mentions state addresses address) (leads : state.lookup address = some handle)
      (stored : state.content handle = some shape) (member : other ∈ shape.addresses) :
      Mentions state addresses other

/-- What a collection mentions is mentioned by what leads to it. -/
theorem Mentions.trans {addresses : List Address} {shape : Shape} (member : address ∈ addresses)
    (leads : state.lookup address = some handle) (stored : state.content handle = some shape)
    (mentions : state.Mentions shape.addresses other) : state.Mentions addresses other := by
  induction mentions with
  | here inside => exact .further (.here member) leads stored inside
  | further _ before content inside ih => exact .further ih before content inside

/-- A link that agrees with its address leads where the address does. -/
theorem follow_eq_lookup {link : Option Handle}
    (agrees : ∀ handle, link = some handle → state.lookup address = some handle) :
    state.follow link address = state.lookup address := by
  cases link with
  | none => rfl
  | some handle =>
      rw [follow, agrees handle rfl, Option.filter_some]
      split <;> rfl

section WellFormed

variable (wellFormed : state.WellFormed)

include wellFormed

theorem WellFormed.follow {tree : Node} (stored : state.resolve source = some tree)
    {reference : Address × Option Handle} (member : reference ∈ tree.references) :
    state.follow reference.2 reference.1 = state.lookup reference.1 :=
  follow_eq_lookup (wellFormed.linked stored reference member)

theorem WellFormed.calls_iff :
    state.Calls source target ↔
      ∃ shape, state.content source = some shape ∧
        ∃ address ∈ shape.addresses, state.lookup address = some target := by
  constructor
  · rintro ⟨tree, stored, reference, member, leads⟩
    rw [wellFormed.follow stored member] at leads
    refine ⟨tree.shape, content_of_resolve stored, reference.1, ?_, leads⟩
    rw [Tree.addresses_shape, ← Tree.fst_references]
    exact List.mem_map_of_mem member
  · rintro ⟨shape, content, address, member, leads⟩
    obtain ⟨tree, stored, rfl⟩ := exists_of_content content
    rw [Tree.addresses_shape, ← Tree.fst_references] at member
    obtain ⟨reference, inside, rfl⟩ := List.mem_map.1 member
    exact ⟨tree, stored, reference, inside, (wellFormed.follow stored inside).trans leads⟩

/-- A collection calls what is named in it. -/
theorem WellFormed.calls_of_mem {tree : Node} (stored : state.content source = some tree.shape)
    (member : address ∈ tree.addresses) (leads : state.lookup address = some target) :
    state.Calls source target := by
  rw [← Tree.addresses_shape] at member
  exact wellFormed.calls_iff.2 ⟨tree.shape, stored, address, member, leads⟩

/-- What a collection mentions it leads to. -/
theorem WellFormed.transGen_of_mentions {shape : Shape} (stored : state.content source = some shape)
    (mentions : state.Mentions shape.addresses address) (leads : state.lookup address = some target) :
    Relation.TransGen state.Calls source target := by
  induction mentions generalizing target with
  | here member => exact .single (wellFormed.calls_iff.2 ⟨shape, stored, _, member, leads⟩)
  | further _ before content member ih =>
      exact .tail (ih before) (wellFormed.calls_iff.2 ⟨_, content, _, member, leads⟩)

theorem WellFormed.mentions_of_transGen {shape : Shape} (stored : state.content source = some shape)
    (path : Relation.TransGen state.Calls source target) :
    ∃ address, state.Mentions shape.addresses address ∧ state.lookup address = some target := by
  induction path with
  | single call =>
      obtain ⟨_, content, address, member, leads⟩ := wellFormed.calls_iff.1 call
      obtain rfl := Option.some.inj (stored.symm.trans content)
      exact ⟨address, .here member, leads⟩
  | tail _ call ih =>
      obtain ⟨_, content, address, member, leads⟩ := wellFormed.calls_iff.1 call
      obtain ⟨before, mentions, found⟩ := ih
      exact ⟨address, .further mentions found content member, leads⟩

end WellFormed

section Search

/-- Some chain of references, which enters no collection visited before, ends in a reference that
means the target. -/
inductive Meets (state : State) (target : SaveTarget) (visited : List Handle) :
    List (Address × Option Handle) → Prop where
  | here {references : List (Address × Option Handle)} {reference : Address × Option Handle}
      (member : reference ∈ references)
      (meant : target.isMeantBy reference.1 (state.follow reference.2 reference.1) = true) :
      Meets state target visited references
  | there {references : List (Address × Option Handle)} {reference : Address × Option Handle}
      {handle : Handle} {tree : Node} (member : reference ∈ references)
      (leads : state.follow reference.2 reference.1 = some handle) (isNew : handle ∉ visited)
      (stored : state.resolve handle = some tree)
      (further : Meets state target visited tree.references) : Meets state target visited references

variable {goal : SaveTarget} {visited : List Handle} {references more : List (Address × Option Handle)}
  {reference : Address × Option Handle} {tree : Node}

theorem Meets.mono (meets : state.Meets goal visited references)
    (inside : ∀ reference ∈ references, reference ∈ more) : state.Meets goal visited more := by
  cases meets with
  | here member meant => exact .here (inside _ member) meant
  | there member leads isNew stored further => exact .there (inside _ member) leads isNew stored further

theorem Meets.of_visited (meets : state.Meets goal (handle :: visited) references) :
    state.Meets goal visited references := by
  induction meets with
  | here member meant => exact .here member meant
  | there member leads isNew stored _ ih =>
      exact .there member leads (fun old => isNew (.tail _ old)) stored ih

/-- A chain that enters a collection can be cut where it leaves it for the last time. -/
theorem Meets.avoid (meets : state.Meets goal visited references)
    (stored : state.resolve handle = some tree) :
    state.Meets goal (handle :: visited) references ∨
      state.Meets goal (handle :: visited) tree.references := by
  induction meets with
  | here member meant => exact .inl (.here member meant)
  | @there references reference another node member leads isNew found _ ih =>
      rcases ih with along | back
      · by_cases same : another = handle
        · subst same
          obtain rfl := Option.some.inj (stored.symm.trans found)
          exact .inr along
        · refine .inl (.there member leads (fun old => ?_) found along)
          rcases List.mem_cons.1 old with here | there
          · exact same here
          · exact isNew there
      · exact .inr back

theorem not_meets_nil : ¬ state.Meets goal visited [] := by
  rintro (⟨member, -⟩ | ⟨member, -, -, -, -⟩) <;> cases member

/-- A reference that cannot be followed to the target adds nothing to a search. -/
theorem meets_cons_of_skip
    (other : ¬ goal.isMeantBy reference.1 (state.follow reference.2 reference.1) = true)
    (stuck : ∀ handle tree, state.follow reference.2 reference.1 = some handle → handle ∉ visited →
      state.resolve handle ≠ some tree) :
    state.Meets goal visited (reference :: references) ↔ state.Meets goal visited references := by
  refine ⟨fun meets => ?_, fun meets => meets.mono fun _ member => .tail _ member⟩
  cases meets with
  | here member meant =>
      cases member with
      | head => exact absurd meant other
      | tail _ member => exact .here member meant
  | there member leads isNew stored further =>
      cases member with
      | head => exact absurd stored (stuck _ _ leads isNew)
      | tail _ member => exact .there member leads isNew stored further

/-- A reference that can be followed adds the references of what it leads to. -/
theorem meets_cons_of_enter
    (other : ¬ goal.isMeantBy reference.1 (state.follow reference.2 reference.1) = true)
    (leads : state.follow reference.2 reference.1 = some handle) (isNew : handle ∉ visited)
    (stored : state.resolve handle = some tree) :
    state.Meets goal visited (reference :: references) ↔
      state.Meets goal (handle :: visited) (tree.references ++ references) := by
  constructor
  · intro meets
    rcases meets.avoid stored with along | back
    · refine Meets.mono ((meets_cons_of_skip other fun found _ leads' seen => ?_).1 along)
        fun _ member => List.mem_append_right _ member
      obtain rfl := Option.some.inj (leads.symm.trans leads')
      exact absurd (List.mem_cons_self ..) seen
    · exact back.mono fun _ member => List.mem_append_left _ member
  · intro meets
    have split : ∀ {references'}, state.Meets goal visited (tree.references ++ references') →
        state.Meets goal visited tree.references ∨ state.Meets goal visited references' := by
      intro references' meets
      cases meets with
      | here member meant =>
          exact (List.mem_append.1 member).imp (.here · meant) (.here · meant)
      | there member leads isNew stored further =>
          exact (List.mem_append.1 member).imp (.there · leads isNew stored further)
            (.there · leads isNew stored further)
    rcases split meets.of_visited with below | beside
    · exact .there (.head _) leads isNew stored below
    · exact beside.mono fun _ member => .tail _ member

theorem reachesFrom_cons_of_skip
    (other : ¬ goal.isMeantBy reference.1 (state.follow reference.2 reference.1) = true)
    (stuck : ∀ handle tree, state.follow reference.2 reference.1 = some handle → handle ∉ visited →
      state.resolve handle ≠ some tree) :
    state.reachesFrom goal visited (reference :: references) =
      state.reachesFrom goal visited references := by
  rw [reachesFrom, if_neg other]
  split
  · rfl
  · next handle leads =>
    split
    · rfl
    · next tree stored => exact dif_neg fun isNew => stuck handle tree leads isNew stored

theorem reachesFrom_cons_of_enter
    (other : ¬ goal.isMeantBy reference.1 (state.follow reference.2 reference.1) = true)
    (leads : state.follow reference.2 reference.1 = some handle) (isNew : handle ∉ visited)
    (stored : state.resolve handle = some tree) :
    state.reachesFrom goal visited (reference :: references) =
      state.reachesFrom goal (handle :: visited) (tree.references ++ references) := by
  rw [reachesFrom, if_neg other]
  split
  · next nowhere =>
    rw [leads] at nowhere
    cases nowhere
  · next found leads' =>
    obtain rfl := Option.some.inj (leads.symm.trans leads')
    split
    · next empty =>
      rw [stored] at empty
      cases empty
    · next node stored' =>
      obtain rfl := Option.some.inj (stored.symm.trans stored')
      exact dif_pos isNew

/-- The search finds the target exactly if some chain of references ends in it. -/
theorem reachesFrom_eq_true :
    state.reachesFrom goal visited references = true ↔ state.Meets goal visited references := by
  -- In three of the cases the reference leads nowhere new, and the search goes on beside it.
  have skip : ∀ {visited : List Handle} {references : List (Address × Option Handle)} {reference},
      (state.reachesFrom goal visited references = true ↔ state.Meets goal visited references) →
      ¬ goal.isMeantBy reference.1 (state.follow reference.2 reference.1) = true →
      (∀ handle tree, state.follow reference.2 reference.1 = some handle → handle ∉ visited →
        state.resolve handle ≠ some tree) →
      (state.reachesFrom goal visited (reference :: references) = true ↔
        state.Meets goal visited (reference :: references)) := by
    intro visited references reference beside other stuck
    rw [reachesFrom_cons_of_skip other stuck, meets_cons_of_skip other stuck, beside]
  induction visited, references using reachesFrom.induct state goal with
  | case1 visited => simp [reachesFrom, not_meets_nil]
  | case2 visited address link rest handle meant =>
      rw [reachesFrom, if_pos meant]
      exact iff_of_true rfl (.here (.head _) meant)
  | case3 visited address link rest handle other nowhere ih =>
      refine skip ih other fun found tree leads => ?_
      cases nowhere.symm.trans leads
  | case4 visited address link rest handle other found leads empty ih =>
      refine skip ih other fun target tree leads' _ stored => ?_
      obtain rfl := Option.some.inj (leads.symm.trans leads')
      cases empty.symm.trans stored
  | case5 visited address link rest handle other found leads tree stored isNew ih =>
      rw [reachesFrom_cons_of_enter other leads isNew stored,
        meets_cons_of_enter other leads isNew stored]
      exact ih
  | case6 visited address link rest handle other found leads tree stored old ih =>
      refine skip ih other fun target node leads' isNew _ => old ?_
      obtain rfl := Option.some.inj (leads.symm.trans leads')
      exact isNew

end Search

end Medley.State
