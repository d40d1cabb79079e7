import Mathlib.Data.List.Induction
import Medley.Proofs.References.Chains
import Medley.Proofs.Registry.Runs

/-!
# Which changes close a cycle of references

Saving a tree is checked against the name that it is saved under, but not against the collection that
it replaces by its identity, and making a playlist the active one is not checked at all.  These are
the two ways to close a cycle, and there is no other: `Registry.acyclic_iff_closes_no_cycle`.
-/

namespace Medley.State

variable {state after : State} {address other : Address} {handle source target : Handle}
  {tree : Node}

section Validation

/-- A chain of names that ends in the target is found by the search from linked references. -/
theorem WellFormed.meets_of_mentions (wellFormed : state.WellFormed) {goal : SaveTarget}
    {references : List (Address × Option Handle)}
    (linked : ∀ reference ∈ references,
      state.follow reference.2 reference.1 = state.lookup reference.1)
    (mentions : state.Mentions (references.map Prod.fst) other)
    (meant : goal.isMeantBy other (state.lookup other) = true) :
    state.Meets goal [] references := by
  -- The end of the chain either means the target or leads to a collection that does.
  suffices reaches : ∀ address, state.Mentions (references.map Prod.fst) address →
      (goal.isMeantBy address (state.lookup address) = true ∨
        ∃ handle node, state.lookup address = some handle ∧ state.resolve handle = some node ∧
          state.Meets goal [] node.references) →
      state.Meets goal [] references from reaches other mentions (.inl meant)
  clear meant mentions
  intro address mentions
  have first : ∀ {references : List (Address × Option Handle)} {address},
      (∀ reference ∈ references,
        state.follow reference.2 reference.1 = state.lookup reference.1) →
      address ∈ references.map Prod.fst →
      (goal.isMeantBy address (state.lookup address) = true ∨
        ∃ handle node, state.lookup address = some handle ∧ state.resolve handle = some node ∧
          state.Meets goal [] node.references) →
      state.Meets goal [] references := by
    intro references address linked member ends
    obtain ⟨reference, inside, rfl⟩ := List.mem_map.1 member
    rw [← linked reference inside] at ends
    rcases ends with meant | ⟨handle, node, leads, stored, below⟩
    · exact .here inside meant
    · exact .there inside leads List.not_mem_nil stored below
  induction mentions with
  | here member => exact first linked member
  | further _ leads content member ih =>
      intro ends
      obtain ⟨node, stored, rfl⟩ := exists_of_content content
      rw [Tree.addresses_shape, ← Tree.fst_references] at member
      exact ih (.inr ⟨_, node, leads, stored,
        first (fun _ inside => wellFormed.follow stored inside) member ends⟩)

/-- What a reference has if it passes the check for a target. -/
theorem checkReference_eq_ok {goal : SaveTarget} {link : Option Handle}
    (passes : state.checkReference (some goal) link address = .ok ()) :
    ¬ goal.isMeantBy address (state.lookup address) = true ∧
      ∃ handle node, state.lookup address = some handle ∧
        (∀ linked, link = some linked → linked = handle) ∧ state.resolve handle = some node ∧
        ¬ state.reachesFrom goal [handle] node.references = true := by
  unfold checkReference at passes
  simp only [Option.any_some] at passes
  split at passes
  · simp [fail] at passes
  · next other =>
    refine ⟨other, ?_⟩
    split at passes
    · simp [fail] at passes
    · next handle leads =>
      split at passes
      · simp [fail] at passes
      · next agrees =>
        split at passes
        · simp [fail] at passes
        · next node stored =>
          split at passes
          · simp [fail] at passes
          · next far =>
            refine ⟨handle, node, leads, fun linked link => ?_, stored, far⟩
            subst link
            simpa using agrees

theorem checkReference_of_validate (valid : state.validate tree (some address) = .ok ())
    {reference : Address × Option Handle} (member : reference ∈ tree.references) :
    state.checkReference (some (state.saveTarget address)) reference.2 reference.1 = .ok () := by
  unfold validate at valid
  exact ((Tree.check_eq_ok_iff _ tree).1 (Except.unit_bind_eq_ok.1 valid).1).2 reference member

/-- A tree that may be saved leads neither to the name nor to what the name leads to. -/
theorem WellFormed.not_meant_of_validate (wellFormed : state.WellFormed)
    (valid : state.validate tree (some address) = .ok ())
    (mentions : state.Mentions tree.addresses other) :
    ¬ (state.saveTarget address).isMeantBy other (state.lookup other) = true := by
  intro meant
  have linked : ∀ reference ∈ tree.references,
      state.follow reference.2 reference.1 = state.lookup reference.1 := by
    intro reference member
    obtain ⟨-, handle, _, leads, agrees, -, -⟩ :=
      checkReference_eq_ok (checkReference_of_validate valid member)
    exact follow_eq_lookup fun bound link => leads.trans (congrArg some (agrees bound link).symm)
  rw [← Tree.fst_references] at mentions
  cases wellFormed.meets_of_mentions linked mentions meant with
  | here member meant =>
      rw [linked _ member] at meant
      exact (checkReference_eq_ok (checkReference_of_validate valid member)).1 meant
  | there member leads _ stored further =>
      obtain ⟨-, handle, node, found, -, held, far⟩ :=
        checkReference_eq_ok (checkReference_of_validate valid member)
      rw [linked _ member] at leads
      obtain rfl := Option.some.inj (found.symm.trans leads)
      obtain rfl := Option.some.inj (held.symm.trans stored)
      rw [reachesFrom_eq_true] at far
      exact far ((further.avoid stored).elim id id)

/-- A tree that may be saved names stored collections alone. -/
theorem isSome_of_validate (valid : state.validate tree (some address) = .ok ())
    (member : other ∈ tree.addresses) : (state.lookup other).isSome := by
  rw [← Tree.fst_references] at member
  obtain ⟨reference, inside, rfl⟩ := List.mem_map.1 member
  obtain ⟨-, handle, _, leads, -⟩ := checkReference_eq_ok (checkReference_of_validate valid inside)
  rw [leads]
  rfl

end Validation

namespace Redirects

variable {shape : Shape}

/-- A call between two other collections was there before. -/
theorem calls_before (redirects : state.Redirects after handle shape)
    (wellFormed : state.WellFormed) (call : after.Calls source target) (fromOther : source ≠ handle)
    (toOther : target ≠ handle) : state.Calls source target := by
  obtain ⟨content, stored, address, member, leads⟩ := redirects.wellFormed.calls_iff.1 call
  refine wellFormed.calls_iff.2 ⟨content, redirects.kept fromOther stored, address, member, ?_⟩
  rcases redirects.lookup address with kept | moved
  · rw [← kept, leads]
  · exact absurd (Option.some.inj (leads.symm.trans moved)) toOther

/-- A path that was not there before passes through the handle. -/
theorem transGen_cases (redirects : state.Redirects after handle shape)
    (wellFormed : state.WellFormed) (path : Relation.TransGen after.Calls source target) :
    Relation.TransGen state.Calls source target ∨
      Relation.ReflTransGen after.Calls source handle ∧
        Relation.ReflTransGen after.Calls handle target := by
  induction path with
  | @single target call =>
      by_cases fromHandle : source = handle
      · exact .inr ⟨fromHandle ▸ .refl, fromHandle ▸ .single call⟩
      · by_cases toHandle : target = handle
        · exact .inr ⟨toHandle ▸ .single call, toHandle ▸ .refl⟩
        · exact .inl (.single (redirects.calls_before wellFormed call fromHandle toHandle))
  | @tail middle target path call ih =>
      rcases ih with before | ⟨enters, leaves⟩
      · by_cases fromHandle : middle = handle
        · exact .inr ⟨fromHandle ▸ path.to_reflTransGen, fromHandle ▸ .single call⟩
        · by_cases toHandle : target = handle
          · exact .inr ⟨toHandle ▸ path.to_reflTransGen.tail call, toHandle ▸ .refl⟩
          · exact .inl (before.tail (redirects.calls_before wellFormed call fromHandle toHandle))
      · exact .inr ⟨enters, leaves.tail call⟩

/-- A path from the handle afterwards is a chain of mentions before, up to where it comes back. -/
theorem mentions_of_transGen (redirects : state.Redirects after handle shape)
    (path : Relation.TransGen after.Calls handle target) :
    (∃ address, state.Mentions shape.addresses address ∧ after.lookup address = some handle) ∨
      target ≠ handle ∧
        ∃ address, state.Mentions shape.addresses address ∧ after.lookup address = some target := by
  have ends : ∀ {address target}, state.Mentions shape.addresses address →
      after.lookup address = some target →
      (∃ address, state.Mentions shape.addresses address ∧ after.lookup address = some handle) ∨
        target ≠ handle ∧
          ∃ address, state.Mentions shape.addresses address ∧
            after.lookup address = some target := by
    intro address target mentions leads
    by_cases same : target = handle
    · exact .inl ⟨address, mentions, same ▸ leads⟩
    · exact .inr ⟨same, address, mentions, leads⟩
  induction path with
  | single call =>
      obtain ⟨content, stored, address, member, leads⟩ := redirects.wellFormed.calls_iff.1 call
      obtain rfl := Option.some.inj (redirects.placed.symm.trans stored)
      exact ends (.here member) leads
  | tail _ call ih =>
      obtain ⟨content, stored, address, member, leads⟩ := redirects.wellFormed.calls_iff.1 call
      rcases ih with closed | ⟨different, before, mentions, found⟩
      · exact .inl closed
      · rcases redirects.lookup before with kept | moved
        · exact ends (.further mentions (kept ▸ found) (redirects.kept different stored) member) leads
        · exact .inl ⟨before, mentions, moved⟩

/-- A chain of mentions before is a path from the handle afterwards, unless one closes earlier. -/
theorem transGen_of_mentions (redirects : state.Redirects after handle shape)
    (mentions : state.Mentions shape.addresses address) (leads : after.lookup address = some target) :
    Relation.TransGen after.Calls handle handle ∨ Relation.TransGen after.Calls handle target := by
  have afterwards := redirects.wellFormed
  induction mentions generalizing target with
  | here member =>
      exact .inr (.single (afterwards.calls_iff.2 ⟨shape, redirects.placed, _, member, leads⟩))
  | @further address other middle content _ before stored member ih =>
      rcases redirects.lookup address with kept | moved
      · rcases ih (kept.trans before) with closed | enters
        · exact .inl closed
        · by_cases same : middle = handle
          · exact .inl (same ▸ enters)
          · obtain ⟨content', found⟩ :=
              Option.isSome_iff_exists.1 (afterwards.named (kept.trans before))
            obtain rfl := Option.some.inj (stored.symm.trans (redirects.kept same found))
            exact .inr (enters.tail (afterwards.calls_iff.2 ⟨content, found, _, member, leads⟩))
      · exact .inl ((ih moved).elim id id)

/-- When names come to lead to a handle, the only new cycles are those of a chain from the collection
there to one of the names. -/
theorem acyclic_iff (redirects : state.Redirects after handle shape)
    (wellFormed : state.WellFormed) (acyclic : state.Acyclic) :
    after.Acyclic ↔
      ¬ ∃ address, state.Mentions shape.addresses address ∧ after.lookup address = some handle := by
  constructor
  · rintro none ⟨address, mentions, leads⟩
    exact none handle ((redirects.transGen_of_mentions mentions leads).elim id id)
  · intro none target cycle
    rcases redirects.transGen_cases wellFormed cycle with before | ⟨enters, leaves⟩
    · exact acyclic target before
    · have loop : Relation.TransGen after.Calls handle handle :=
        (Relation.TransGen.trans_right leaves cycle).trans_left enters
      rcases redirects.mentions_of_transGen loop with closed | ⟨different, -⟩
      · exact none closed
      · exact different rfl

theorem closed (redirects : state.Redirects after handle shape) (closed : state.Closed)
    (resolves : ∀ address ∈ shape.addresses, (state.lookup address).isSome) : after.Closed := by
  intro another content stored address member
  have before : (state.lookup address).isSome := by
    by_cases same : another = handle
    · obtain rfl := Option.some.inj (redirects.placed.symm.trans (same ▸ stored))
      exact resolves address member
    · exact closed _ _ (redirects.kept same stored) _ member
  rcases redirects.lookup address with kept | moved
  · rwa [kept]
  · rw [moved]
    rfl

end Redirects

section Steps

variable (wellFormed : state.WellFormed)

include wellFormed

/-- Saving closes a cycle exactly if the tree leads to the collection that it replaces by its
identity. -/
theorem WellFormed.acyclic_save (acyclic : state.Acyclic)
    (saved : state.save address tree = .ok after) :
    after.Acyclic ↔ ¬ ∃ handle, state.sharing address.space tree.identity = some handle ∧
      ∃ other, state.Mentions tree.addresses other ∧ state.lookup other = some handle := by
  obtain ⟨valid, handle, redirects, leads⟩ := wellFormed.save saved
  rw [redirects.acyclic_iff wellFormed acyclic, not_iff_not]
  simp only [leads, Tree.addresses_shape]
  constructor
  · rintro ⟨other, mentions, moves⟩
    have far := wellFormed.not_meant_of_validate valid mentions
    rcases moves with rfl | ⟨old, displaced, found⟩
    · exact absurd (by simp [SaveTarget.isMeantBy, saveTarget]) far
    · unfold State.displaced at displaced
      cases shares : state.sharing address.space tree.identity with
      | some shared =>
          rw [shares, Option.some_or] at displaced
          exact ⟨shared, rfl, other, mentions, found.trans displaced.symm⟩
      | none =>
          rw [shares, Option.none_or] at displaced
          exact absurd (by simp [SaveTarget.isMeantBy, saveTarget, found, displaced]) far
  · rintro ⟨shared, shares, other, mentions, found⟩
    exact ⟨other, mentions, .inr ⟨shared, by rw [displaced, shares, Option.some_or], found⟩⟩

/-- Making a playlist the active one closes a cycle exactly if it leads to a mention of the active
one. -/
theorem WellFormed.acyclic_activate (acyclic : state.Acyclic) {name : String}
    (activated : state.activate name = .ok after) :
    after.Acyclic ↔ ¬ ∃ handle shape, state.lookup ⟨.playlists, name⟩ = some handle ∧
      state.content handle = some shape ∧
      state.Mentions shape.addresses ⟨.playlists, activeName⟩ := by
  obtain ⟨handle, shape, found, stored, redirects, lookups⟩ := wellFormed.activate activated
  rw [redirects.acyclic_iff wellFormed acyclic, not_iff_not]
  constructor
  · rintro ⟨address, mentions, leads⟩
    rw [lookups] at leads
    split at leads
    · next same => exact ⟨handle, shape, found, stored, same ▸ mentions⟩
    · exact absurd (wellFormed.transGen_of_mentions stored mentions leads) (acyclic handle)
  · rintro ⟨handle', shape', found', stored', mentions⟩
    obtain rfl := Option.some.inj (found.symm.trans found')
    obtain rfl := Option.some.inj (stored.symm.trans stored')
    exact ⟨_, mentions, by rw [lookups, if_pos rfl]⟩

/-- A collection that takes the place of a reference leads where the reference led. -/
theorem WellFormed.acyclic_remove (acyclic : state.Acyclic) {next : Nat}
    (removed : (state.remove address next).1 = .ok after) : after.Acyclic := by
  obtain ⟨handle, target, found, stored, afterwards, lookups, contents⟩ := wellFormed.remove removed
  have calls : ∀ source target, after.Calls source target →
      Relation.TransGen state.Calls source target := by
    intro source goal call
    obtain ⟨shape, content, other, member, leads⟩ := afterwards.calls_iff.1 call
    obtain ⟨before, was, rfl⟩ := contents content
    rw [lookups] at leads
    split at leads
    · cases leads
    · rcases Tree.mem_addresses_inlined.1 member with ⟨kept, -⟩ | ⟨refers, inside⟩
      · exact .single (wellFormed.calls_iff.2 ⟨before, was, other, kept, leads⟩)
      · exact .tail (.single (wellFormed.calls_iff.2 ⟨before, was, address, refers, found⟩))
          (wellFormed.calls_iff.2 ⟨target, stored, other, inside, leads⟩)
  exact fun handle cycle => acyclic handle (Relation.TransGen.closed calls _ _ cycle)

/-- References are renamed with what they name. -/
theorem WellFormed.acyclic_rename (acyclic : state.Acyclic) (closed : state.Closed) {name : String}
    (renamed : state.rename address name = .ok after) : after.Acyclic := by
  obtain ⟨handle, found, free, afterwards, lookups, contents⟩ := wellFormed.rename renamed
  have calls : ∀ source target, after.Calls source target → state.Calls source target := by
    intro source target call
    obtain ⟨shape, content, other, member, leads⟩ := afterwards.calls_iff.1 call
    rw [contents] at content
    obtain ⟨before, was, rfl⟩ := Option.map_eq_some_iff.1 content
    rw [lookups] at leads
    rcases Tree.mem_addresses_renamed.1 member with ⟨kept, different⟩ | ⟨refers, -, rfl⟩
    · rw [if_neg, if_neg different] at leads
      · exact wellFormed.calls_iff.2 ⟨before, was, other, kept, leads⟩
      · rintro rfl
        simpa [free] using closed _ _ was _ kept
    · rw [if_pos rfl] at leads
      exact wellFormed.calls_iff.2 ⟨before, was, address, refers, found.trans leads⟩
  exact fun handle cycle => acyclic handle (Relation.TransGen.mono calls _ _ cycle)

theorem WellFormed.closed_remove (acyclic : state.Acyclic) (closed : state.Closed) {next : Nat}
    (removed : (state.remove address next).1 = .ok after) : after.Closed := by
  obtain ⟨handle, target, found, stored, afterwards, lookups, contents⟩ := wellFormed.remove removed
  intro source shape content other member
  obtain ⟨before, was, rfl⟩ := contents content
  rw [lookups]
  rcases Tree.mem_addresses_inlined.1 member with ⟨kept, different⟩ | ⟨-, inside⟩
  · rw [if_neg different]
    exact closed _ _ was _ kept
  · rw [if_neg]
    · exact closed _ _ stored _ inside
    · rintro rfl
      exact acyclic handle (.single (wellFormed.calls_iff.2 ⟨target, stored, other, inside, found⟩))

theorem WellFormed.closed_rename (closed : state.Closed) {name : String}
    (renamed : state.rename address name = .ok after) : after.Closed := by
  obtain ⟨handle, found, free, afterwards, lookups, contents⟩ := wellFormed.rename renamed
  intro source shape content other member
  rw [contents] at content
  obtain ⟨before, was, rfl⟩ := Option.map_eq_some_iff.1 content
  rw [lookups]
  rcases Tree.mem_addresses_renamed.1 member with ⟨kept, different⟩ | ⟨-, -, rfl⟩
  · rw [if_neg different]
    split
    · rfl
    · exact closed _ _ was _ kept
  · rw [if_pos rfl]
    rfl

end Steps

/-- Whether a request closes a cycle of references. -/
def ClosesCycle (state : State) : Request → Prop
  | .save address tree =>
      ∃ handle, state.sharing address.space tree.identity = some handle ∧
        ∃ other, state.Mentions tree.addresses other ∧ state.lookup other = some handle
  | .activate name =>
      ∃ handle shape, state.lookup ⟨.playlists, name⟩ = some handle ∧
        state.content handle = some shape ∧
        state.Mentions shape.addresses ⟨.playlists, activeName⟩
  | .create _ | .remove _ | .rename _ _ => False

/-- Without cycles so far, a request keeps references resolved, and makes a cycle exactly if it
closes one. -/
theorem WellFormed.acyclic_apply (wellFormed : state.WellFormed) (acyclic : state.Acyclic)
    (closed : state.Closed) {request : Request} {next : Nat}
    (applied : (state.apply request next).1 = .ok after) :
    (after.Acyclic ↔ ¬ state.ClosesCycle request) ∧ after.Closed := by
  cases request with
  | create count =>
      obtain rfl := Except.ok.inj applied
      exact ⟨iff_of_true acyclic id, closed⟩
  | save address tree =>
      obtain ⟨valid, handle, redirects, -⟩ := wellFormed.save applied
      refine ⟨wellFormed.acyclic_save acyclic applied, redirects.closed closed ?_⟩
      rw [Tree.addresses_shape]
      exact fun other member => isSome_of_validate valid member
  | remove address =>
      exact ⟨iff_of_true (wellFormed.acyclic_remove acyclic applied) id,
        wellFormed.closed_remove acyclic closed applied⟩
  | rename address name =>
      exact ⟨iff_of_true (wellFormed.acyclic_rename acyclic closed applied) id,
        wellFormed.closed_rename closed applied⟩
  | activate name =>
      obtain ⟨handle, shape, -, stored, redirects, -⟩ := wellFormed.activate applied
      exact ⟨wellFormed.acyclic_activate acyclic applied,
        redirects.closed closed (closed _ _ stored)⟩

theorem acyclic_empty : ({} : State).Acyclic := by
  intro handle cycle
  obtain ⟨_, ⟨tree, stored, -⟩, -⟩ := Relation.TransGen.head'_iff.1 cycle
  simp [resolve] at stored

theorem closed_empty : ({} : State).Closed := by
  intro handle shape stored
  simp [content, resolve] at stored

end Medley.State

namespace Medley.Registry

variable {σ : Type} [RecordStore σ]

theorem acyclic_serve {registry : Registry σ} (wellFormed : registry.state.WellFormed)
    (acyclic : registry.state.Acyclic) (closed : registry.state.Closed) (request : Request) :
    ((registry.serve request).state.Acyclic ↔
        ¬ (registry.Accepts request ∧ registry.state.ClosesCycle request)) ∧
      (registry.serve request).state.Closed := by
  rcases registry.serve_cases request with ⟨state, applied, accepts, same⟩ | ⟨refuses, same⟩
  · obtain ⟨closes, closed⟩ := wellFormed.acyclic_apply acyclic closed applied
    rw [same, closes]
    exact ⟨by simp [accepts], closed⟩
  · rw [same]
    exact ⟨iff_of_true acyclic fun both => refuses both.1, closed⟩

/-- From an empty registry on, references run into a cycle exactly if a request that succeeds closes
one: a save of a tree that leads to the collection with its identity, or the choice of an active
playlist that leads to a mention of the active one. -/
theorem acyclic_iff_closes_no_cycle (config : Config) (library : MediaLibrary) (store : σ)
    (requests : List Request) :
    let start : Registry σ := { config, library, store }
    (∀ done, done <+: requests → (start.serveAll done).state.Acyclic) ↔
      ∀ done request, done ++ [request] <+: requests →
        (start.serveAll done).Accepts request → ¬ (start.serveAll done).state.ClosesCycle request := by
  intro start
  have last : ∀ done request, start.serveAll (done ++ [request]) =
      (start.serveAll done).serve request := fun done request =>
    serveAll_append start done [request]
  have wellFormed : ∀ done, (start.serveAll done).state.WellFormed := fun done =>
    wellFormed_serveAll State.WellFormed.empty done
  constructor
  · intro acyclic
    have closed : ∀ done, done <+: requests → (start.serveAll done).state.Closed := by
      intro done before
      induction done using List.reverseRecOn with
      | nil => exact State.closed_empty
      | append_singleton done request ih =>
          have earlier := (List.prefix_append done [request]).trans before
          rw [last]
          exact (acyclic_serve (wellFormed done) (acyclic done earlier) (ih earlier) request).2
    intro done request before accepts closes
    have earlier := (List.prefix_append done [request]).trans before
    have step := acyclic_serve (wellFormed done) (acyclic done earlier) (closed done earlier) request
    exact step.1.1 (last done request ▸ acyclic _ before) ⟨accepts, closes⟩
  · intro none done before
    suffices both : (start.serveAll done).state.Acyclic ∧ (start.serveAll done).state.Closed from
      both.1
    induction done using List.reverseRecOn with
    | nil => exact ⟨State.acyclic_empty, State.closed_empty⟩
    | append_singleton done request ih =>
        obtain ⟨acyclic, closed⟩ := ih ((List.prefix_append done [request]).trans before)
        have step := acyclic_serve (wellFormed done) acyclic closed request
        rw [last]
        exact ⟨step.1.2 fun both => none done request before both.1 both.2, step.2⟩

end Medley.Registry
