import Medley.Proofs.Meaning.Asking

/-!
# What removing a collection does to the others

References to a removed collection become copies of it, which have its predicate.  Where a reference
is the root of a collection, perhaps below orders and limits, the orders and limits of the copy come
to light, and the others answer as before exactly if those make no difference
(`Registry.query_remove`).
-/

namespace Medley

open Compiling

namespace State

variable {state after : State} {address : Address} {handle : Handle}

/-- The orders and limits of another collection after a removal: where its root was a reference to
the removed one, those of the copy are added. -/
theorem peel_inlined {node node' target : Node} {outer inner : Peeled}
    (shapes : node'.shape = node.substitute (·.inlined address target.shape))
    (peels : node.peel = .ok outer) (peelsTarget : target.peel = .ok inner) :
    ∃ outer', node'.peel = .ok outer' ∧
      (outer.root.operator.target? = some address → outer'.orders = outer.orders ++ inner.orders ∧
        outer'.limit = outer.limit.or inner.limit) ∧
      (outer.root.operator.target? ≠ some address → outer'.orders = outer.orders ∧
        outer'.limit = outer.limit) := by
  by_cases names : outer.root.operator.target? = some address
  · obtain ⟨put, same, around⟩ :=
      Tree.peel_substitute (fun _ => Operator.inlined_of_kind_ne) shapes peels
    have copied : put.shape = target.shape := by
      rw [same]
      cases root : outer.root with
      | node mark operator operands =>
          rw [root, Tree.operator_node] at names
          rw [Tree.substitute_node, Operator.inlined, if_pos names, Option.getD_some]
    obtain ⟨root, peelsPut⟩ := Tree.peel_of_shape_eq copied peelsTarget
    rw [peelsPut] at around
    exact ⟨_, around, fun _ => ⟨rfl, rfl⟩, fun other => absurd names other⟩
  · obtain ⟨root, kept⟩ := Tree.peel_kept (fun _ => Operator.inlined_of_kind_ne) shapes peels
      (by rw [Operator.inlined, if_neg names])
    exact ⟨_, kept, fun same => absurd same names, fun _ => ⟨rfl, rfl⟩⟩

/-- Whether removing a collection brings orders or a limit of it to light at the root of another. -/
def Exposes (state : State) (params : QueryParams) (address : Address) (tree : Node) : Prop :=
  ∃ target outer inner, state.get? address = some target ∧ tree.peel = .ok outer ∧
    target.peel = .ok inner ∧ outer.root.operator.target? = some address ∧
    (inner.orders ≠ [] ∨
      queryRange params (outer.limit.or inner.limit) ≠ queryRange params outer.limit)

theorem exposes_iff {params : QueryParams} {target tree : Node} {outer inner : Peeled}
    (get : state.get? address = some target) (peels : tree.peel = .ok outer)
    (peelsTarget : target.peel = .ok inner) :
    state.Exposes params address tree ↔ outer.root.operator.target? = some address ∧
      (inner.orders ≠ [] ∨
        queryRange params (outer.limit.or inner.limit) ≠ queryRange params outer.limit) := by
  constructor
  · rintro ⟨_, _, _, get', peels', peelsTarget', names, differs⟩
    obtain rfl := Option.some.inj (get.symm.trans get')
    obtain rfl := Except.ok.inj (peels.symm.trans peels')
    obtain rfl := Except.ok.inj (peelsTarget.symm.trans peelsTarget')
    exact ⟨names, differs⟩
  · rintro ⟨names, differs⟩
    exact ⟨target, outer, inner, get, peels, peelsTarget, names, differs⟩

/-- Whether copies of a collection in a tree name stored collections alone. -/
def CopiesResolve (state : State) (address : Address) (tree : Node) : Prop :=
  address ∈ tree.addresses → ∀ target, state.get? address = some target →
    ∀ other ∈ target.addresses, (state.lookup other).isSome

section Removed

variable (wellFormed : state.WellFormed) (acyclic : state.Acyclic)

include wellFormed acyclic

/-- A collection without cycles does not mention its own names. -/
theorem WellFormed.not_mem_addresses {shape : Shape} (leads : state.lookup address = some handle)
    (stored : state.content handle = some shape) : address ∉ shape.addresses := fun member =>
  acyclic handle (.single (wellFormed.calls_iff.2 ⟨shape, stored, address, member, leads⟩))

/-- A copy in place of a reference has the predicate that the reference stood for. -/
theorem WellFormed.agrees_remove {next : Nat} (removed : (state.remove address next).1 = .ok after)
    {target : Node} (get : state.get? address = some target) (source : Handle) :
    ∀ {node node' : Node}, state.content source = some node.shape →
      node'.shape = node.substitute (·.inlined address target.shape) →
      Agrees Predicate.Equivalent False (lower (fun _ => state.byName) node)
        (lower (fun _ => after.byName) node') := by
  obtain ⟨handle, _, leads, stored, afterwards, lookups, contents⟩ := wellFormed.remove removed
  have acyclicAfter := wellFormed.acyclic_remove acyclic removed
  obtain ⟨tree, found, rfl⟩ := exists_of_content stored
  rw [get?, leads, Option.bind_some, found] at get
  obtain rfl := Option.some.inj get
  have absent := wellFormed.not_mem_addresses acyclic leads stored
  rw [Tree.addresses_shape] at absent
  have rules := (Tree.validate_shape tree).1 (wellFormed.valid stored)
  -- A copy has no reference to the removed name, so it is its own image, and the induction along
  -- references covers what it leads to.
  induction source using acyclic.induction with
  | step source ih =>
      intro node node' here shapes
      have calls : ∀ operator ∈ node.referring, ∀ {other goal}, operator.target? = some other →
          state.lookup other = some goal → state.Calls source goal := by
        intro operator member other goal names leads
        have inside := (Tree.mem_addresses node).2 ⟨operator, member, names⟩
        exact wellFormed.calls_of_mem here inside leads
      refine (Tree.alike_of_substitute Predicate.congruence_equivalent
        ((Tree.validate_shape node).1 (wellFormed.valid here)) shapes ?_ ?_ ?_ ?_).agrees
      · intro operator shape replaces
        obtain ⟨names, rfl⟩ := Operator.eq_of_inlined replaces
        exact ⟨by rw [names]; rfl, wellFormed.valid stored⟩
      · exact fun _ _ _ _ _ => Predicate.absorbs_equivalent
      · intro operator member replaces other names
        have different : other ≠ address := by
          rintro rfl
          simp [Operator.inlined, names] at replaces
        have same := lookups other
        rw [if_neg different] at same
        cases leads : state.lookup other with
        | none =>
            rw [byName, byName, get?, get?, same, leads]
            exact .throw _
        | some goal =>
            apply wellFormed.agrees_byName acyclic afterwards acyclicAfter leads (same.trans leads)
            intro before now was is
            obtain ⟨shape, content, shapes⟩ := contents is
            obtain rfl := Option.some.inj (was.symm.trans content)
            rw [Tree.substitute_shape] at shapes
            exact ih goal (calls operator member names leads) was shapes
      · intro operator member shape other replaces names put puts
        obtain ⟨same, rfl⟩ := Operator.eq_of_inlined replaces
        obtain rfl := Option.some.inj (names.symm.trans same)
        rw [wellFormed.byName_eq acyclic leads found]
        refine ih handle (calls operator member names leads) stored ?_
        rw [puts, Tree.substitute_inlined_of_not_mem rules absent]

/-- What another collection is after a removal, and that it passes the checks if it did before and
the copies in it do. -/
theorem WellFormed.resolve_remove {next : Nat} (removed : (state.remove address next).1 = .ok after)
    {other : Address} (different : other ≠ address) {tree : Node}
    (leads : state.lookup other = some handle) (stored : state.resolve handle = some tree) :
    ∃ target tree', state.get? address = some target ∧ after.lookup other = some handle ∧
      after.resolve handle = some tree' ∧
      tree'.shape = tree.substitute (·.inlined address target.shape) ∧
      (after.validate tree'.unbound none = .ok () ↔
        state.validate tree.unbound none = .ok () ∧ state.CopiesResolve address tree.unbound) := by
  obtain ⟨source, target, found, content, afterwards, lookups, contents⟩ := wellFormed.remove removed
  obtain ⟨target, copied, rfl⟩ := exists_of_content content
  have kept : after.lookup other = some handle := by rw [lookups, if_neg different, leads]
  obtain ⟨tree', is⟩ := Option.isSome_iff_exists.1 (afterwards.occupied kept)
  obtain ⟨shape, was, shapes⟩ := contents (content_of_resolve is)
  obtain rfl := Option.some.inj ((content_of_resolve stored).symm.trans was)
  rw [Tree.substitute_shape] at shapes
  have get : state.get? address = some target := by rw [get?, found, Option.bind_some, copied]
  refine ⟨target, tree', get, kept, is, shapes, ?_⟩
  have rules := (Tree.validate_shape tree).1 (wellFormed.valid (content_of_resolve stored))
  have rules' := (Tree.validate_shape tree').1 (afterwards.valid (content_of_resolve is))
  have absent := wellFormed.not_mem_addresses acyclic found content
  rw [Tree.addresses_shape] at absent
  have names : ∀ name, name ∈ tree'.addresses ↔ (name ∈ tree.addresses ∧ name ≠ address) ∨
      (address ∈ tree.addresses ∧ name ∈ target.addresses) := by
    intro name
    rw [← Tree.addresses_shape, shapes, Tree.mem_addresses_inlined, Tree.addresses_shape]
  have stays : ∀ name, name ≠ address → after.lookup name = state.lookup name := by
    intro name other
    rw [lookups, if_neg other]
  rw [validate_unbound, validate_unbound, CopiesResolve, Tree.addresses_unbound]
  constructor
  · rintro ⟨-, resolve⟩
    refine ⟨⟨rules, fun name member => ?_⟩, fun refers copied' get' name member => ?_⟩
    · by_cases same : name = address
      · rw [same, found]
        rfl
      · exact stays name same ▸ resolve name ((names name).2 (.inl ⟨member, same⟩))
    · obtain rfl := Option.some.inj (get.symm.trans get')
      have different : name ≠ address := fun same => absent (same ▸ member)
      exact stays name different ▸ resolve name ((names name).2 (.inr ⟨refers, member⟩))
  · rintro ⟨⟨-, resolve⟩, copies⟩
    refine ⟨rules', fun name member => ?_⟩
    rcases (names name).1 member with ⟨inside, different⟩ | ⟨refers, inside⟩
    · rw [stays name different]
      exact resolve name inside
    · rw [stays name fun same => absent (same ▸ inside)]
      exact copies refers target get name inside

/-- What another collection is compiled to after a removal: an equivalent predicate of the same
fields, with the orders and limits of both where its root was a reference to the removed one. -/
theorem WellFormed.compile_remove {next : Nat} (removed : (state.remove address next).1 = .ok after)
    {target tree tree' : Node} (get : state.get? address = some target)
    (stored : state.resolve handle = some tree) (stored' : after.resolve handle = some tree')
    (shapes : tree'.shape = tree.substitute (·.inlined address target.shape)) (defaultBase : String)
    (params : QueryParams) :
    ∃ outer outer' inner, tree.unbound.peel = .ok outer ∧ target.peel = .ok inner ∧
      (outer.root.operator.target? = some address → outer'.orders = outer.orders ++ inner.orders ∧
        outer'.limit = outer.limit.or inner.limit) ∧
      (outer.root.operator.target? ≠ some address → outer'.orders = outer.orders ∧
        outer'.limit = outer.limit) ∧
      ((∃ predicate predicate' table, Predicate.Equivalent predicate predicate' ∧
          state.compile defaultBase tree.unbound params =
            .ok (.assemble params outer predicate table) ∧
          after.compile defaultBase tree'.unbound params =
            .ok (.assemble params outer' predicate' table)) ∨
        ∃ error, state.compile defaultBase tree.unbound params = .error error ∧
          after.compile defaultBase tree'.unbound params = .error error) := by
  obtain ⟨_, _, found, _, afterwards, -, -⟩ := wellFormed.remove removed
  have acyclicAfter := wellFormed.acyclic_remove acyclic removed
  have validTarget : target.validate = .ok () := by
    obtain ⟨source, -, holds⟩ := Option.bind_eq_some_iff.1 get
    exact (Tree.validate_shape target).1 (wellFormed.valid (content_of_resolve holds))
  have copies : tree'.unbound.shape = tree.unbound.substitute (·.inlined address target.shape) := by
    rw [Tree.shape_unbound, shapes]
    exact Tree.substitute_of_shape_eq (Tree.shape_unbound tree).symm _
  obtain ⟨outer, peels⟩ := Tree.exists_peel (wellFormed.validate_unbound_of_resolve stored)
  obtain ⟨inner, peelsTarget⟩ := Tree.exists_peel validTarget
  obtain ⟨outer', peels', replaced, kept⟩ := peel_inlined copies peels peelsTarget
  refine ⟨outer, outer', inner, peels, peelsTarget, replaced, kept, ?_⟩
  rw [wellFormed.compile_unbound acyclic stored peels,
    afterwards.compile_unbound acyclicAfter stored' peels']
  have step := wellFormed.agrees_remove acyclic removed get handle (content_unbound stored) copies
    { defaultBase }
  generalize lower (fun _ => state.byName) tree.unbound { defaultBase } = before at step
  generalize lower (fun _ => after.byName) tree'.unbound { defaultBase } = now at step
  cases step with
  | ok table same => exact .inl ⟨_, _, table, same, rfl, rfl⟩
  | error error => exact .inr ⟨error, rfl, rfl⟩
  | lenient impossible => cases impossible

end Removed

end State

namespace Registry

variable {σ : Type} [RecordStore σ]

/-- A collection answers after another one was removed as it did before, unless orders or a limit of
the removed one come to light or copies of it have dangling references; then it is ordered or cut in
another way, or does not answer.  What is answered before and afterwards may be drawn apart, but for
requests and trees that ask for a random order: their answers are the same under the same draw. -/
theorem query_remove (config : Config) (content : MemoryLibrary) (store : σ)
    (requests : List Request) (address : Address) :
    let start : Registry σ := { config, library := content.toMediaLibrary, store }
    let registry := start.serveAll requests
    let after := registry.serve (.remove address)
    registry.state.Acyclic → registry.Accepts (.remove address) →
    ∀ other, other ≠ address → ∀ tree, registry.get other = .ok tree →
    ∃ tree', after.get other = .ok tree' ∧ ∀ params,
      (¬ registry.state.Exposes params address tree → registry.state.CopiesResolve address tree →
        ∀ draw draw', (tree.Shuffles params.order → draw = draw') → ∀ rows,
          registry.query draw tree params = .ok rows ↔ after.query draw' tree' params = .ok rows) ∧
      (registry.state.Exposes params address tree → ∀ query query',
        registry.compile tree params = .ok query → after.compile tree' params = .ok query' →
        query.orderBy ≠ query'.orderBy ∨ query.limit ≠ query'.limit) ∧
      (¬ registry.state.CopiesResolve address tree →
        ∀ draw rows, after.query draw tree' params ≠ .ok rows) := by
  intro start registry after acyclic accepts other different tree got
  have wellFormed : registry.state.WellFormed := wellFormed_serveAll State.WellFormed.empty requests
  have library : registry.library = content.toMediaLibrary := (settings_serveAll start requests).2
  obtain ⟨state, removed, -, same⟩ | ⟨refuses, -⟩ := registry.serve_cases (.remove address)
  swap
  · exact absurd accepts refuses
  obtain ⟨handle, stored, leads, stands, rfl⟩ := get_eq_ok.1 got
  obtain ⟨target, tree', get, kept, is, shapes, checks⟩ :=
    wellFormed.resolve_remove acyclic removed different leads stands
  refine ⟨tree'.unbound, get_eq_ok.2 ⟨handle, tree', same ▸ kept, same ▸ is, rfl⟩, fun params => ?_⟩
  obtain ⟨outer, outer', inner, peels, peelsTarget, replaced, kept', outcome⟩ :=
    wellFormed.compile_remove acyclic removed get stands is shapes registry.config.defaultBaseField
      params
  have settings := settings_serve registry (.remove address)
  have compileAfter : ∀ query, after.compile tree'.unbound params = .ok query ↔
      state.validate tree'.unbound none = .ok () ∧
        state.compile registry.config.defaultBaseField tree'.unbound params = .ok query := by
    intro query
    rw [compile_eq_ok, same, settings.1]
  have exposes : registry.state.Exposes params address stored.unbound ↔ _ :=
    State.exposes_iff get peels peelsTarget
  have libraryAfter : after.library = content.toMediaLibrary := settings.2.trans library
  refine ⟨fun hidden copies draw draw' drawn rows => ?_, fun shown query query' before now => ?_,
    fun dangling draw rows answers => ?_⟩
  · -- The same range of the same order, and equivalent predicates.
    have peeled : outer'.orders = outer.orders ∧
        queryRange params outer'.limit = queryRange params outer.limit := by
      by_cases names : outer.root.operator.target? = some address
      · have unchanged := not_or.1 fun differs => hidden (exposes.2 ⟨names, differs⟩)
        rw [(replaced names).1, (replaced names).2, not_not.1 unchanged.1, List.append_nil]
        exact ⟨rfl, not_not.1 unchanged.2⟩
      · exact ⟨(kept' names).1, congrArg _ (kept' names).2⟩
    rw [query_eq_ok, query_eq_ok, library, libraryAfter]
    simp only [compile_eq_ok, compileAfter, checks, and_iff_left copies]
    rcases outcome with ⟨predicate, predicate', table, alike, before, now⟩ | ⟨error, before, now⟩
    · have shuffles := State.shuffles_of_compile before
      rw [before, now, CompiledQuery.assemble_eq_of_peeled peeled.1 peeled.2 predicate]
      simp only [Except.ok.injEq, and_assoc, exists_and_left, exists_eq_left']
      have rowsSame : content.execute draw' _ =
          content.execute draw (.assemble params outer predicate table) :=
        calc content.execute draw' _
          _ = content.execute draw' (.assemble params outer predicate table) :=
            content.execute_congr alike predicate'.render draw'
          _ = content.execute draw (.assemble params outer predicate table) :=
            content.execute_of_draws fun random => (drawn (shuffles.1 random)).symm
      refine and_congr_right fun _ => ?_
      show content.execute draw _ = .ok rows ↔ content.execute draw' _ = .ok rows
      rw [rowsSame]
    · simp only [before, now, reduceCtorEq, and_false, false_and, exists_false]
  · rw [compile_eq_ok] at before
    rw [compileAfter] at now
    obtain ⟨names, differs⟩ := exposes.1 shown
    rcases outcome with ⟨predicate, predicate', table, -, compiled, compiled'⟩ | ⟨error, failed, -⟩
    · obtain rfl := Except.ok.inj (compiled.symm.trans before.2)
      obtain rfl := Except.ok.inj (compiled'.symm.trans now.2)
      refine CompiledQuery.assemble_ne_of_peeled (replaced names).1 ?_ _ _ _
      rwa [(replaced names).2]
    · rw [failed] at before
      cases before.2
  · -- The tree does not pass the checks any more.
    obtain ⟨query, compiled, -⟩ := query_eq_ok.1 answers
    exact dangling (checks.1 ((compileAfter query).1 compiled).1).2

/-- A reference to the first medium stands for all media cut to one when the collection with the first
medium is removed. -/
theorem query_remove_first :
    let start : Registry NoStore := { library := Sample.media.toMediaLibrary, store := {} }
    let registry := start.serveAll Sample.requests
    let after := registry.serve (.remove ⟨.collections, "First"⟩)
    registry.state.Acyclic ∧ registry.Accepts (.remove ⟨.collections, "First"⟩) ∧
      registry.get ⟨.collections, "Again"⟩ = .ok Sample.again ∧
      ∃ tree', after.get ⟨.collections, "Again"⟩ = .ok tree' ∧ ∀ query query',
        registry.compile Sample.again {} = .ok query → after.compile tree' {} = .ok query' →
        query.orderBy ≠ query'.orderBy ∨ query.limit ≠ query'.limit := by
  intro start registry after
  have state : registry.state = Sample.both := Sample.serveAll_requests _
  have acyclic : registry.state.Acyclic := state ▸ Sample.acyclic_both.1
  have accepts : registry.Accepts (.remove ⟨.collections, "First"⟩) := by
    have removed : ∃ after, (Sample.both.apply (.remove ⟨.collections, "First"⟩)
        registry.nextIdentity).1 = .ok after := ⟨_, rfl⟩
    rw [← state] at removed
    obtain ⟨after, removed⟩ := removed
    exact (registry.serve_of_apply rfl removed).1
  have got : registry.get ⟨.collections, "Again"⟩ = .ok Sample.again := by
    rw [Registry.get, state]
    rfl
  have exposes : registry.state.Exposes {} ⟨.collections, "First"⟩ Sample.again := by
    have stored : Sample.both.get? ⟨.collections, "First"⟩ = some Sample.first := rfl
    have outer : Sample.again.peel = .ok ⟨[], none, Sample.again⟩ := rfl
    have inner : Sample.first.peel = .ok ⟨[], some ⟨0, 1⟩, .leaf ⟨1, none⟩ { kind := .universe }⟩ := rfl
    have names : Sample.again.operator.target? = some ⟨.collections, "First"⟩ := rfl
    rw [state]
    exact ⟨_, _, _, stored, outer, inner, names, .inr (by decide)⟩
  have answers := query_remove {} Sample.media NoStore.mk Sample.requests ⟨.collections, "First"⟩
    acyclic accepts ⟨.collections, "Again"⟩ (by decide) Sample.again got
  obtain ⟨tree', got', outcome⟩ := answers
  obtain ⟨-, differs, -⟩ := outcome {}
  exact ⟨acyclic, accepts, got, tree', got', differs exposes⟩

end Registry

end Medley
