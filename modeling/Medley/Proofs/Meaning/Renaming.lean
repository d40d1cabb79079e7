import Medley.Proofs.Meaning.Asking
import Medley.Proofs.Registry.Restoring

/-!
# What renaming a collection does to queries

References are renamed with the collection that they name, so every collection is compiled to what it
was compiled to before, under its old name or its new one.  The name of the whole library is the
exception: nothing keeps a collection from being given it, and references to the collection mean the
whole library from then on (`Registry.compile_rename`).
-/

namespace Medley

open Compiling

namespace State

variable {state after : State} {address : Address} {name : String} {handle : Handle}

/-- The state with every reference to an address made one to the whole library. -/
def widened (state : State) (address : Address) : State :=
  (state.renameReferences address allMedia).bindAll

/-- Where a name leads after a renaming. -/
def renamedTo (address : Address) (name : String) (other : Address) : Address :=
  if other = address then { address with name } else other

section Trees

/-- References are renamed below orders and limits, which stay. -/
theorem peel_renamed {node node' : Node} {peeled : Peeled}
    (shapes : node'.shape = node.substitute (·.renamed address name)) (peels : node.peel = .ok peeled) :
    ∃ root, node'.peel = .ok ⟨peeled.orders, peeled.limit, root⟩ := by
  by_cases names : peeled.root.operator.target? = some address
  · obtain ⟨put, same, around⟩ :=
      Tree.peel_substitute (fun _ => Operator.renamed_of_kind_ne) shapes peels
    have replaced : peeled.root.operator.renamed address name = some put.shape := by
      rw [same]
      cases root : peeled.root with
      | node mark operator operands =>
          rw [root, Tree.operator_node] at names
          rw [Tree.substitute_node, Tree.operator_node, Operator.renamed, if_pos names,
            Option.getD_some]
    have valid := (Tree.validate_shape put).1 (Operator.validate_renamed replaced)
    have shape := (Operator.eq_of_renamed replaced).2
    obtain ⟨mark, operator, operands⟩ := put
    rw [Tree.shape_node, Tree.node.injEq] at shape
    have reference : operator.kind = .reference := by
      rw [shape.2.1]
      have kind := Operator.kind_of_target? names
      exact kind
    rw [Tree.peel_reference reference valid] at around
    exact ⟨.node mark operator operands, by simpa [Except.map, Peeled.around] using around⟩
  · exact Tree.peel_kept (fun _ => Operator.renamed_of_kind_ne) shapes peels
      (by rw [Operator.renamed, if_neg names])

end Trees

section Widened

theorem lookup_widened : (state.widened address).lookup = state.lookup := by
  rw [widened, lookup_bindAll, lookup_renameReferences]

variable (wellFormed : state.WellFormed)

include wellFormed

theorem WellFormed.widened (address : Address) : (state.widened address).WellFormed :=
  (wellFormed.renameReferences address allMedia).bindAll

theorem WellFormed.content_widened (handle : Handle) :
    (state.widened address).content handle =
      (state.content handle).map (Tree.substitute (·.renamed address allMedia)) := by
  rw [State.widened, content_bindAll, content_renameReferences allMedia wellFormed.valid]

/-- Giving a collection the name of the whole library makes the references to it ones to the whole
library, which the name does not change. -/
theorem WellFormed.matches_widened (closed : state.Closed)
    (renamed : state.rename address allMedia = .ok after) :
    after.Matches (state.widened address) := by
  obtain ⟨handle, found, free, afterwards, lookups, contents⟩ := wellFormed.rename renamed
  refine ⟨fun handle => by rw [contents, wellFormed.content_widened], ?_⟩
  intro handle shape stored other member
  rw [contents] at stored
  obtain ⟨before, was, rfl⟩ := Option.map_eq_some_iff.1 stored
  rw [lookup_widened, lookups]
  rcases Tree.mem_addresses_renamed.1 member with ⟨inside, different⟩ | ⟨-, impossible, -⟩
  · have leads := closed _ _ was other inside
    rw [if_neg, if_neg different]
    rintro rfl
    rw [free] at leads
    cases leads
  · exact absurd rfl impossible

end Widened

section Renamed

variable (wellFormed : state.WellFormed) (acyclic : state.Acyclic) (closed : state.Closed)

include wellFormed acyclic closed

/-- A renamed reference has the predicate that the reference had. -/
theorem WellFormed.agrees_rename (renamed : state.rename address name = .ok after)
    (source : Handle) :
    ∀ {node node' : Node}, state.content source = some node.shape →
      node'.shape = node.substitute (·.renamed address name) →
      (name ≠ allMedia ∨ ¬ state.Mentions node.addresses address) →
      Agrees Eq False (lower (fun _ => state.byName) node)
        (lower (fun _ => after.byName) node') := by
  obtain ⟨handle, found, free, afterwards, lookups, contents⟩ := wellFormed.rename renamed
  have acyclicAfter := wellFormed.acyclic_rename acyclic closed renamed
  induction source using acyclic.induction with
  | step source ih =>
      intro node node' here shapes means
      have rules := wellFormed.valid here
      -- What a reference leads to is compiled afterwards to what it was compiled to before.
      have follows : ∀ operator ∈ node.referring, ∀ {other goal other'},
          operator.target? = some other → state.lookup other = some goal →
          after.lookup other' = some goal →
          Agrees Eq False (state.byName other) (after.byName other') := by
        intro operator member other goal other' names leads leads'
        have inside : other ∈ node.addresses := (Tree.mem_addresses node).2 ⟨operator, member, names⟩
        apply wellFormed.agrees_byName acyclic afterwards acyclicAfter leads leads'
        intro before now was is
        rw [contents, was, Option.map_some, Tree.substitute_shape, Option.some.injEq] at is
        apply ih goal (wellFormed.calls_of_mem here inside leads) was is.symm
        refine means.imp_right fun far mentions => far (.trans inside leads was ?_)
        rwa [Tree.addresses_shape]
      have stored : ∀ operator ∈ node.referring, operator.target? = some address →
          name ≠ allMedia := by
        intro operator member names
        have inside := (Tree.mem_addresses node).2 ⟨operator, member, names⟩
        exact means.resolve_right fun far => far (.here inside)
      refine (Tree.alike_of_substitute Predicate.congruence_eq ((Tree.validate_shape node).1 rules)
        shapes ?_ ?_ ?_ ?_).agrees
      · intro operator shape replaces
        exact ⟨by rw [(Operator.eq_of_renamed replaces).1]; rfl, Operator.validate_renamed replaces⟩
      · intro operator member shape replaces everything
        obtain ⟨names, rfl⟩ := Operator.eq_of_renamed replaces
        have target := Operator.target?_setAttribute_reference names name
        rw [if_neg (stored operator member names)] at target
        rw [Tree.isEverything_of_target? target] at everything
        cases everything
      · intro operator member replaces other names
        have inside : other ∈ node.addresses := (Tree.mem_addresses node).2 ⟨operator, member, names⟩
        obtain ⟨goal, leads⟩ := Option.isSome_iff_exists.1
          (closed _ _ here other (by rwa [Tree.addresses_shape]))
        refine follows operator member names leads ?_
        rw [lookups, if_neg, if_neg, leads]
        · rintro rfl
          simp [Operator.renamed, names] at replaces
        · rintro rfl
          rw [free] at leads
          cases leads
      · intro operator member shape other replaces names put puts
        obtain ⟨same, rfl⟩ := Operator.eq_of_renamed replaces
        obtain rfl := Option.some.inj (names.symm.trans same)
        have target := Operator.target?_setAttribute_reference names name
        rw [if_neg (stored operator member names)] at target
        have valid : put.validate = .ok () := by
          rw [← Tree.validate_shape, puts]
          exact Operator.validate_renamed replaces
        obtain ⟨mark, operator', operands'⟩ := put
        rw [Tree.shape_node, Tree.node.injEq] at puts
        rw [Tree.lower_reference (puts.2.1 ▸ target) valid]
        refine follows operator member names found ?_
        rw [lookups, if_pos rfl]

omit acyclic closed in
theorem WellFormed.get_rename (renamed : state.rename address name = .ok after) {other : Address}
    {tree : Node} (leads : state.lookup other = some handle)
    (stored : state.resolve handle = some tree) :
    ∃ tree', after.lookup (renamedTo address name other) = some handle ∧
      after.resolve handle = some tree' ∧
      tree'.shape = tree.substitute (·.renamed address name) := by
  obtain ⟨source, found, free, afterwards, lookups, contents⟩ := wellFormed.rename renamed
  have kept : after.lookup (renamedTo address name other) = some handle := by
    rw [lookups, renamedTo]
    by_cases same : other = address
    · subst same
      rw [if_pos rfl, if_pos rfl, ← found, leads]
    · rw [if_neg same, if_neg, if_neg same, leads]
      rintro rfl
      rw [free] at leads
      cases leads
  obtain ⟨tree', is⟩ := Option.isSome_iff_exists.1 (afterwards.occupied kept)
  have shape := content_of_resolve is
  rw [contents, content_of_resolve stored, Option.map_some, Tree.substitute_shape] at shape
  exact ⟨tree', kept, is, (Option.some.inj shape).symm⟩

/-- A collection that does not mean the whole library by a renamed reference is compiled as before. -/
theorem WellFormed.compile_renamed (renamed : state.rename address name = .ok after)
    {tree tree' : Node} (stored : state.resolve handle = some tree)
    (stored' : after.resolve handle = some tree')
    (shapes : tree'.shape = tree.substitute (·.renamed address name))
    (means : name ≠ allMedia ∨ ¬ state.Mentions tree.addresses address) (defaultBase : String)
    (params : QueryParams) :
    after.compile defaultBase tree'.unbound params =
      state.compile defaultBase tree.unbound params := by
  obtain ⟨_, -, -, afterwards, -, -⟩ := wellFormed.rename renamed
  have acyclicAfter := wellFormed.acyclic_rename acyclic closed renamed
  have same : tree'.unbound.shape = tree.unbound.substitute (·.renamed address name) := by
    rw [Tree.shape_unbound, shapes]
    exact Tree.substitute_of_shape_eq (Tree.shape_unbound tree).symm _
  obtain ⟨peeled, peels⟩ := Tree.exists_peel (wellFormed.validate_unbound_of_resolve stored)
  obtain ⟨root, peels'⟩ := peel_renamed same peels
  have agrees := wellFormed.agrees_rename acyclic closed renamed handle (content_unbound stored) same
    (by rwa [Tree.addresses_unbound])
  rw [wellFormed.compile_unbound acyclic stored peels,
    afterwards.compile_unbound acyclicAfter stored' peels', agrees.eq]
  rfl

end Renamed

end State

namespace Registry

variable {σ : Type} [RecordStore σ]

/-- Where references resolve and are acyclic, a collection is compiled after a renaming to what it was
compiled to before, unless it leads to a collection that gets the name of the whole library; then to
what it would be compiled to if it led to the whole library instead. -/
theorem compile_rename (config : Config) (library : MediaLibrary) (store : σ)
    (operations : List (Operation σ)) (address : Address) (name : String) :
    let start : Registry σ := { config, library, store }
    let registry := start.performAll operations
    let after := registry.serve (.rename address name)
    let widened := registry.withState (registry.state.widened address)
    registry.state.Closed → registry.state.Acyclic → registry.Accepts (.rename address name) →
    ∀ other tree, registry.get other = .ok tree →
    ∃ tree', after.get (State.renamedTo address name other) = .ok tree' ∧
      (name ≠ allMedia ∨ ¬ registry.state.Mentions tree.addresses address →
        ∀ params, after.compile tree' params = registry.compile tree params) ∧
      (name = allMedia → ∃ tree'', widened.get other = .ok tree'' ∧
        ∀ params, after.compile tree' params = widened.compile tree'' params) := by
  intro start registry after widened closed acyclic accepts other tree got
  have wellFormed : registry.state.WellFormed :=
    wellFormed_performAll State.WellFormed.empty operations
  obtain ⟨state, renamed, -, same⟩ | ⟨refuses, -⟩ := registry.serve_cases (.rename address name)
  swap
  · exact absurd accepts refuses
  have renames : registry.state.rename address name = .ok state := renamed
  obtain ⟨_, -, -, afterwards, -⟩ := wellFormed.rename renames
  have closedAfter : after.state.Closed := same ▸ wellFormed.closed_rename closed renames
  obtain ⟨handle, stored, leads, stands, rfl⟩ := get_eq_ok.1 got
  obtain ⟨stored', leads', stands', shapes⟩ := wellFormed.get_rename renames leads stands
  have compileAfter : ∀ params, after.compile stored'.unbound params =
      state.compile registry.config.defaultBaseField stored'.unbound params := by
    intro params
    rw [compile_eq_of_closed (same ▸ afterwards) closedAfter (same ▸ stands'), same]
    rw [(settings_serve registry _).1]
  refine ⟨stored'.unbound, get_eq_ok.2 ⟨handle, stored', same ▸ leads', same ▸ stands', rfl⟩,
    fun means params => ?_, ?_⟩
  · rw [Tree.addresses_unbound] at means
    rw [compileAfter, compile_eq_of_closed wellFormed closed stands]
    exact wellFormed.compile_renamed acyclic closed renames stands stands' shapes means _ params
  · rintro rfl
    have acyclicAfter := wellFormed.acyclic_rename acyclic closed renames
    have alike := wellFormed.matches_widened closed renames
    have wide := wellFormed.widened address
    have leadsWide : widened.state.lookup other = some handle :=
      (congrFun State.lookup_widened other).trans leads
    obtain ⟨stored'', stands''⟩ := Option.isSome_iff_exists.1 (wide.occupied leadsWide)
    refine ⟨stored''.unbound, get_eq_ok.2 ⟨handle, stored'', leadsWide, stands'', rfl⟩,
      fun params => ?_⟩
    rw [compileAfter, compile_eq_of_closed wide (alike.closed (same ▸ closedAfter)) stands'']
    exact (alike.compile_eq afterwards wide acyclicAfter stands' stands'' _ params).symm

/-- A reference to the first medium of a library means all media once the collection with the first
medium has the name of the whole library. -/
theorem compile_rename_first :
    let start : Registry NoStore := { library := Sample.media.toMediaLibrary, store := {} }
    let registry := start.serveAll Sample.requests
    let after := registry.serve (.rename ⟨.collections, "First"⟩ allMedia)
    let widened := registry.withState (registry.state.widened ⟨.collections, "First"⟩)
    registry.state.Closed ∧ registry.state.Acyclic ∧
      registry.Accepts (.rename ⟨.collections, "First"⟩ allMedia) ∧
      registry.get ⟨.collections, "Again"⟩ = .ok Sample.again ∧
      ∃ tree' tree'', after.get ⟨.collections, "Again"⟩ = .ok tree' ∧
        widened.get ⟨.collections, "Again"⟩ = .ok tree'' ∧
        ∀ params, after.compile tree' params = widened.compile tree'' params := by
  intro start registry after widened
  have state : registry.state = Sample.both := Sample.serveAll_requests _
  have closed : registry.state.Closed := state ▸ Sample.acyclic_both.2
  have acyclic : registry.state.Acyclic := state ▸ Sample.acyclic_both.1
  have accepts : registry.Accepts (.rename ⟨.collections, "First"⟩ allMedia) := by
    have renamed : ∃ after, (Sample.both.apply (.rename ⟨.collections, "First"⟩ allMedia)
        registry.nextIdentity).1 = .ok after := ⟨_, rfl⟩
    rw [← state] at renamed
    obtain ⟨after, renamed⟩ := renamed
    exact (registry.serve_of_apply rfl renamed).1
  have got : registry.get ⟨.collections, "Again"⟩ = .ok Sample.again := by
    rw [Registry.get, state]
    rfl
  have compiles := compile_rename {} Sample.media.toMediaLibrary NoStore.mk
    (Sample.requests.map .serve) ⟨.collections, "First"⟩ allMedia closed acyclic accepts
    ⟨.collections, "Again"⟩ Sample.again got
  obtain ⟨tree', got', -, widens⟩ := compiles
  obtain ⟨tree'', got'', same⟩ := widens rfl
  exact ⟨closed, acyclic, accepts, got, tree', tree'', got', got'', same⟩

end Registry

end Medley
