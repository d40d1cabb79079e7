import Medley.Proofs.Meaning.IdAlias
import Medley.Proofs.Meaning.Paging
import Medley.Proofs.Meaning.Unsharing
import Medley.Proofs.Registry.Restoring

/-!
# Finding a medium

The search for a medium compiles a test of the id over a reference to each stored collection, where the
limits and orders at the root of the collection count for nothing, and neither does what is drawn.  So a
name that a reference takes for a stored collection is found if the ids of the collection without those
limits have that of the medium (`Registry.mem_find_iff`).
-/

namespace Medley

open Compiling

/-! ## The query for one medium -/

namespace Tree

theorem target?_reference {mark : Mark} {address : Address} (stored : address.name ≠ allMedia) :
    (reference mark address.name address.space.name).operator.target? = some address := by
  have keys : Key.reference ≠ Key.space := by decide
  simp only [reference, leaf, operator_node, if_neg stored, Operator.target?,
    Operator.get?_withAttributes, if_neg keys, if_pos]
  simp [Operator.withAttributes, stored]

end Tree

/-! ## Tests of one medium -/

/-- Whether a predicate asks the same as another one of the medium with an id, and is false of the rest. -/
def Predicate.Narrows (id : Int64) (predicate narrowed : Predicate) : Prop :=
  ∀ medium, narrowed.evaluate medium =
    if medium.id = id then predicate.evaluate medium else .ok (some false)

namespace Predicate

theorem evaluate_id (medium : Medium) (id : Int64) :
    (compare .id .equals (.integer id) false).evaluate medium = .ok (some (decide (medium.id = id))) := by
  rw [evaluate]
  simp only [Medium.value?, Value.compare, Value.equals, Value.toInteger?]
  congr 2

/-- A test of the id comes before the predicate that it is joined with. -/
theorem Narrows.all (predicate : Predicate) (id : Int64) :
    predicate.Narrows id (.all [.compare .id .equals (.integer id) false, predicate]) := by
  intro medium
  rw [evaluate, evaluateAll, evaluate_id, evaluateAll, evaluateAll]
  by_cases same : medium.id = id
  · rw [if_pos same, decide_eq_true same]
    cases predicate.evaluate medium with
    | error error => rfl
    | ok truth => rcases truth with _ | _ | _ <;> rfl
  · rw [if_neg same, decide_eq_false same]
    rfl

end Predicate

namespace State

variable {state : State} {address : Address} {handle : Handle} {tree : Node} {id : Int64}

theorem membership_eq (id : Int64) (address : Address) (next : Nat) :
    (Registry.membership id address next).1 =
      .unary ⟨next + 1, none⟩ (.withAttributes (.filter .equals)
        [(Key.type, "id"), (Key.value, Text.writeInt64 id)])
        (.reference ⟨next, none⟩ address.name address.space.name) := rfl

theorem view_membership {ω : Type} (id : Int64) (operand : ω) :
    (Operator.withAttributes (.filter .equals)
        [(Key.type, "id"), (Key.value, Text.writeInt64 id)]).view [operand] =
      .ok (.filter .equals .id (Text.writeInt64 id) false operand) := by
  refine Operator.view_filter rfl ?_ ?_ ?_ (fun _ => ?_) operand
  · simp [Operator.get?_withAttributes]
  · simp [Operator.filterField, Operator.get?_withAttributes, Key.type, Key.value]
  · simp [Operator.get?_withAttributes, Key.caseSensitive, Key.type, Key.value]
  · rw [Text.readInt64?_writeInt64]
    rfl

theorem validate_reference {mark : Mark} (stored : address.name ≠ allMedia) :
    (Tree.reference mark address.name address.space.name).validate = .ok () := by
  generalize isReference : Tree.reference mark address.name address.space.name = node
  obtain ⟨mark, operator, operands⟩ := node
  rw [Tree.reference, Tree.leaf, if_neg stored, Tree.node.injEq] at isReference
  obtain ⟨-, isReference, rfl⟩ := isReference
  have get : ∀ key, operator.attributes.get? key =
      if key = Key.space then some address.space.name
      else if key = Key.reference then some address.name else none := by
    subst isReference
    exact Operator.get?_withAttributes _ _ _
  have name : operator.attributes.get? Key.reference = some address.name := by
    rw [get, if_neg (by decide), if_pos rfl]
  have space : operator.attributes.get? Key.space = some address.space.name := by
    rw [get, if_pos rfl]
  have kind : operator.kind = .reference := isReference ▸ rfl
  refine (Tree.validate_node ..).2 ⟨⟨_, (Operator.view_reference_eq_ok kind).2
    ⟨address.name, name, .inr (by rw [space]; rfl), rfl⟩, fun _ => ?_⟩,
    fun _ member => absurd member List.not_mem_nil⟩
  exact ⟨address.space, by rw [space, Option.getD_some, Namespace.read_name], trivial⟩

/-- A collection of one medium of a stored collection keeps the rules of its kinds. -/
theorem validate_membership (stored : address.name ≠ allMedia) (id : Int64) (next : Nat) :
    (Registry.membership id address next).1.validate = .ok () := by
  rw [membership_eq, Tree.unary]
  refine (Tree.validate_node ..).2 ⟨⟨_, view_membership id _, trivial⟩, fun operand member => ?_⟩
  obtain rfl := List.mem_singleton.1 member
  exact validate_reference stored

/-- One medium of a collection is compiled to a test of the id, which is registered first, and to what the
reference to the collection is compiled to. -/
theorem lower_membership {onReference : Option Handle → Address → Compiling Predicate}
    {defaultBase : String} {next : Nat} :
    lower onReference (Registry.membership id address next).1 { defaultBase } =
      withOperand (.compare .id .equals (.integer id) false)
        (.reference ⟨next, none⟩ address.name address.space.name,
          lower onReference (.reference ⟨next, none⟩ address.name address.space.name))
        (AliasTable.register { defaultBase } "id" false).2 := by
  have literal : ∀ operator, filterLiteral operator .equals .id (Text.writeInt64 id) false =
      .ok (.equals, .integer id) := by
    intro operator
    simp only [filterLiteral, Text.readInt64?_writeInt64]
  rw [membership_eq, Tree.unary, lower_node, List.map_cons, List.map_nil, view_membership]
  show (liftM (filterLiteral (Operator.withAttributes (.filter .equals)
      [(Key.type, "id"), (Key.value, Text.writeInt64 id)]) .equals .id (Text.writeInt64 id) false) >>=
    fun test => withOperand (.compare .id test.1 test.2 false) _ : Compiling Predicate)
      (AliasTable.register { defaultBase } "id" false).2 = _
  rw [literal]
  rfl

/-- For a stored collection, what the reference is compiled to comes after the test of the id. -/
theorem lower_membership_stored (stored : address.name ≠ allMedia)
    {onReference : Address → Compiling Predicate} {defaultBase : String} {next : Nat}
    {predicate' : Predicate} {table' : AliasTable}
    (lowered : lower (fun _ => onReference) (Registry.membership id address next).1 { defaultBase } =
      .ok (predicate', table')) :
    ∃ predicate, onReference address (AliasTable.register { defaultBase } "id" false).2 =
        .ok (predicate, table') ∧
      predicate' = .all [.compare .id .equals (.integer id) false, predicate] := by
  have target : (Tree.reference (⟨next, none⟩ : Mark) address.name address.space.name).operator.target? =
      some address := Tree.target?_reference stored
  have valid : (Tree.reference (⟨next, none⟩ : Mark) address.name address.space.name).validate = .ok () :=
    validate_reference stored
  rw [lower_membership] at lowered
  generalize Tree.reference _ address.name address.space.name = reference at *
  obtain ⟨mark, operator, operands⟩ := reference
  rw [Tree.operator_node] at target
  have kept : Tree.isEverything (.node mark operator operands) = false :=
    Tree.isEverything_of_target? target
  rw [withOperand, if_neg (by rw [kept]; exact Bool.false_ne_true),
    Tree.lower_reference target valid] at lowered
  obtain ⟨predicate, after, lowered, ends⟩ := bind_eq_ok.1 lowered
  cases ends
  exact ⟨predicate, lowered, rfl⟩

/-- Neither that a stored collection counts as entered shows in its predicate, nor that the id has been
registered. -/
theorem WellFormed.predicate_of_enter (wellFormed : state.WellFormed)
    (leads : state.lookup address = some handle) (found : state.resolve handle = some tree)
    {table table' asked : AliasTable} {predicate : Predicate} (besides : table.Besides asked)
    (lowered : state.enter state.slots.length [] address asked = .ok (predicate, table')) :
    ∃ after, state.predicate tree.unbound table = .ok (predicate, after) ∧ after.Besides table' := by
  have rules := (Tree.validate_shape tree).1 (wellFormed.valid (content_of_resolve found))
  have unshares : state.Unshares state := ⟨fun _ => rfl, fun here there => here.trans there.symm⟩
  have fits : (state.unvisited []).length < state.slots.length + 1 :=
    Nat.lt_succ_of_le (state.length_unvisited_le [])
  have enters : state.enter state.slots.length [] address =
      state.predicateWithin state.slots.length [handle] tree := by
    rw [enter, leads]
    simp only [List.not_mem_nil, if_false, found]
  have agrees : Agree Eq True (state.predicateWithin state.slots.length [handle] tree asked)
      (state.predicate tree.unbound asked) :=
    unshares.agrees wellFormed wellFormed rules (Tree.shape_unbound tree) (wellFormed.linked found)
      (Tree.linked_unbound state.lookup tree) fits (fun _ inside => nomatch inside) asked
  rw [← enters, lowered] at agrees
  generalize freely : state.predicate tree.unbound asked = result at agrees
  cases agrees with
  | ok _ equal =>
      obtain rfl := equal
      exact state.blind_predicateWithin (state.slots.length + 1) [] tree.unbound table asked besides
        predicate table' freely

/-- What one medium of a stored collection is compiled to: a test of the id and the predicate of the
collection. -/
theorem WellFormed.predicate_membership (wellFormed : state.WellFormed)
    (stored : address.name ≠ allMedia) (leads : state.lookup address = some handle)
    (found : state.resolve handle = some tree) {table' : AliasTable} {predicate' : Predicate}
    {defaultBase : String} {next : Nat}
    (lowered : state.predicate (Registry.membership id address next).1 { defaultBase } =
      .ok (predicate', table')) :
    ∃ predicate table, state.predicate tree.unbound { defaultBase } = .ok (predicate, table) ∧
      table.Besides table' ∧ predicate.Narrows id predicate' := by
  have linked : (Registry.membership id address next).1.Linked state.lookup :=
    Tree.linked_unbound state.lookup (Registry.membership id address next).1
  rw [State.predicate, predicateWithin_succ (validate_membership stored id next) linked] at lowered
  obtain ⟨predicate, entered, rfl⟩ := lower_membership_stored stored lowered
  have besides := AliasTable.Besides.of_id (.empty defaultBase) false
  obtain ⟨table, plain, beside⟩ := wellFormed.predicate_of_enter leads found besides entered
  exact ⟨predicate, table, plain, beside, .all predicate id⟩

end State

/-! ## What a query for one medium selects -/

namespace CompiledQuery

variable {params : QueryParams} {peeled peeled' : Peeled} {predicate predicate' : Predicate}
  {table table' : AliasTable} {medium : Medium} {id : Int64}

/-- The alias of the id joins nothing. -/
theorem joinsMedium_besides (besides : table.Besides table') :
    (assemble params peeled' predicate' table').joinsMedium medium =
      (assemble params peeled predicate table).joinsMedium medium := by
  have after := ((besides.registerAll params.group).registerAll params.fetch).withBase
  have bases := after.base
  have joins := after.all_eq medium
  unfold joinsMedium assemble
  simp only [bases, joins]

/-- Of the media that a collection's query selects, that for one medium selects the one with its id. -/
theorem selects_besides (besides : table.Besides table') (narrows : predicate.Narrows id predicate')
    {selected : Bool} (selects : (assemble params peeled predicate table).selects medium = .ok selected) :
    (assemble params peeled' predicate' table').selects medium =
      .ok (decide (medium.id = id) && selected) := by
  have asks : (assemble params peeled' predicate' table').predicate.evaluate medium = _ := narrows medium
  have joined : (assemble params peeled' predicate' table').joinsMedium medium =
      (assemble params peeled predicate table).joinsMedium medium := joinsMedium_besides besides
  rw [CompiledQuery.selects] at selects
  rw [CompiledQuery.selects, joined, asks]
  split
  · next joins =>
    rw [if_pos joins] at selects
    by_cases same : medium.id = id
    · rw [if_pos same, decide_eq_true same]
      exact selects
    · rw [if_neg same, decide_eq_false same]
      rfl
  · next joins =>
    rw [if_neg joins] at selects
    obtain rfl := Except.ok.inj selects
    rw [Bool.and_false]
    rfl

theorem exists_of_find {query : CompiledQuery} {draw : Draw} {media found : List Medium}
    (ungrouped : query.groupBy = []) (unlimited : query.limit = none)
    (finds : query.find draw media = .ok found) :
    ∃ keep : Medium → Bool, (∀ medium ∈ media, query.selects medium = .ok (keep medium)) ∧
      ∀ medium, medium ∈ found ↔ medium ∈ media ∧ keep medium = true := by
  rw [find_eq] at finds
  obtain ⟨selected, filters, rfl⟩ := Except.map_eq_ok.1 finds
  obtain ⟨keep, selects, rfl⟩ := List.exists_of_filterM filters
  refine ⟨keep, selects, fun medium => ?_⟩
  rw [cut_of_unlimited unlimited, grouped_of_ungrouped ungrouped, mem_sorted, List.mem_filter]

/-- The query for ids finds a medium with an id if the query for that medium finds any, whatever is
drawn for each. -/
theorem find_besides (besides : table.Besides table') (narrows : predicate.Narrows id predicate')
    (unlimited : peeled.limit = none) (unlimited' : peeled'.limit = none) {draw draw' : Draw}
    {media found found' : List Medium}
    (finds : (assemble Registry.idParams peeled predicate table).find draw media = .ok found)
    (finds' : (assemble Registry.idParams peeled' predicate' table').find draw' media = .ok found') :
    found' ≠ [] ↔ ∃ medium ∈ found, medium.id = id := by
  have uncut : ∀ {outer : Peeled}, outer.limit = none → ∀ predicate table,
      (assemble Registry.idParams outer predicate table).limit = none := by
    intro outer unlimited predicate table
    show queryRange Registry.idParams outer.limit = none
    rw [unlimited, queryRange, if_neg (by decide), Option.filter_none]
  obtain ⟨keep, selects, members⟩ := exists_of_find rfl (uncut unlimited _ _) finds
  obtain ⟨keep', selects', members'⟩ := exists_of_find rfl (uncut unlimited' _ _) finds'
  have agree : ∀ medium ∈ media, keep' medium = (decide (medium.id = id) && keep medium) :=
    fun medium inside => Except.ok.inj ((selects' medium inside).symm.trans
      (selects_besides besides narrows (selects medium inside)))
  constructor
  · intro some
    obtain ⟨medium, member⟩ := List.exists_mem_of_ne_nil _ some
    obtain ⟨inside, kept⟩ := (members' medium).1 member
    rw [agree medium inside, Bool.and_eq_true, decide_eq_true_iff] at kept
    exact ⟨medium, (members medium).2 ⟨inside, kept.2⟩, kept.1⟩
  · rintro ⟨medium, member, same⟩
    obtain ⟨inside, kept⟩ := (members medium).1 member
    refine List.ne_nil_of_mem ((members' medium).2 ⟨inside, ?_⟩)
    rw [agree medium inside, kept, decide_eq_true same, Bool.and_self]

end CompiledQuery

namespace Registry

variable {σ : Type} {registry : Registry σ} {library : MemoryLibrary} {address : Address} {tree : Node}
  {id : Int64}

/-- Names that stand for themselves are looked into. -/
theorem isNamed {space : Namespace} {name : String} (other : ¬ (space = .playlists ∧ name = activeName)) :
    (!(space == .playlists && name == activeName)) = true := by
  rw [Bool.not_eq_true', Bool.and_eq_false_imp, beq_iff_eq]
  exact fun playlists => beq_eq_false_iff_ne.2 fun active => other ⟨playlists, active⟩

/-- The names that are found are those for which the query for the medium has an answer, among those
that the namespace has. -/
theorem mem_find {draws : String → Draw} {space : Namespace} {names : List String}
    (finds : registry.find draws id space = .ok names) {name : String} (listed : name ∈ registry.list space)
    (other : ¬ (space = .playlists ∧ name = activeName)) :
    ∃ query rows,
      registry.compile (membership id ⟨space, name⟩ registry.nextIdentity).1 idParams = .ok query ∧
      registry.library.execute (draws name) query = .ok rows ∧ (name ∈ names ↔ rows ≠ []) := by
  obtain ⟨queries, compiles, finds⟩ := Except.bind_eq_ok.1 finds
  obtain ⟨found, filters, finds⟩ := Except.bind_eq_ok.1 finds
  obtain rfl := Except.ok.inj finds
  obtain ⟨keep, answers, rfl⟩ := List.exists_of_filterM filters
  have runs := List.mapM_eq_ok.1 compiles
  -- An entry is a name with its query.
  have entries : ∀ name entry, (do return (name, ← registry.compile
      (membership id ⟨space, name⟩ registry.nextIdentity).1 idParams) : Except Error _) = .ok entry →
      ∃ query, registry.compile (membership id ⟨space, name⟩ registry.nextIdentity).1 idParams =
        .ok query ∧ entry = (name, query) := by
    intro name entry same
    obtain ⟨query, compiled, same⟩ := Except.bind_eq_ok.1 same
    exact ⟨query, compiled, (Except.ok.inj same).symm⟩
  obtain ⟨entry, inside, same⟩ :=
    exists_of_mem_left runs (List.mem_filter.2 ⟨listed, isNamed other⟩)
  obtain ⟨query, compiled, rfl⟩ := entries name entry same
  obtain ⟨rows, executes, same⟩ := Except.bind_eq_ok.1 (answers _ inside)
  have isKept : keep (name, query) = true ↔ rows ≠ [] := by
    rw [← Except.ok.inj same, Bool.not_eq_true', List.isEmpty_eq_false_iff]
  refine ⟨query, rows, compiled, executes, ?_⟩
  rw [← isKept, List.mem_map]
  constructor
  · rintro ⟨entry, member, isName⟩
    obtain ⟨member, keeps⟩ := List.mem_filter.1 member
    obtain ⟨other, -, same⟩ := exists_of_mem_right runs member
    obtain ⟨query', compiled', rfl⟩ := entries other entry same
    obtain rfl : other = name := isName
    obtain rfl := Except.ok.inj (compiled.symm.trans compiled')
    exact keeps
  · exact fun keeps => ⟨(name, query), List.mem_filter.2 ⟨inside, keeps⟩, rfl⟩

/-- The query for one medium has an answer if a query finds a medium with that id whose predicate the one
for the medium narrows. -/
theorem rows_ne_nil_iff {predicate : Predicate} {table : AliasTable}
    (narrows : ∀ predicate' table', registry.state.predicate (membership id address registry.nextIdentity).1
      { defaultBase := registry.config.defaultBaseField } = .ok (predicate', table') →
        table.Besides table' ∧ predicate.Narrows id predicate')
    {peeled : Peeled} (unlimited : peeled.limit = none) {draw draw' : Draw} {media : List Medium}
    (finds : (CompiledQuery.assemble idParams peeled predicate table).find draw library.media =
      .ok media)
    {query : CompiledQuery} {rows : List Row}
    (compiled : registry.compile (membership id address registry.nextIdentity).1 idParams = .ok query)
    (executes : library.execute draw' query = .ok rows) :
    rows ≠ [] ↔ id ∈ media.map Medium.id := by
  obtain ⟨-, compiled⟩ := compile_eq_ok.1 compiled
  obtain ⟨peeledOne, peelsOne, -⟩ := Except.bind_eq_ok.1 compiled
  have isFilter : (membership id address registry.nextIdentity).1.kind = .filter .equals := rfl
  obtain rfl := Tree.eq_of_peel (isFilter ▸ nofun) (isFilter ▸ nofun) peelsOne
  rw [State.compile_eq peelsOne] at compiled
  obtain ⟨⟨predicate', table'⟩, lowered, rfl⟩ := Except.map_eq_ok.1 compiled
  obtain ⟨besides, narrowed⟩ := narrows predicate' table' lowered
  obtain ⟨found, finds', same⟩ := Except.bind_eq_ok.1 executes
  obtain rfl := Except.ok.inj same
  rw [Ne, List.map_eq_nil_iff, List.mem_map]
  exact CompiledQuery.find_besides besides narrowed unlimited rfl finds finds'

/-- The query for one medium of a stored collection has an answer if the collection, not cut to a range,
has that medium. -/
theorem rows_ne_nil_iff_stored (wellFormed : registry.state.WellFormed) (stored : address.name ≠ allMedia)
    (got : registry.get address = .ok tree) {peeled : Peeled} (peels : tree.peel = .ok peeled)
    {plain : CompiledQuery} (compiled : registry.compile tree.unlimited idParams = .ok plain)
    {draw draw' : Draw} {media : List Medium} (finds : plain.find draw library.media = .ok media)
    {query : CompiledQuery} {rows : List Row}
    (compiled' : registry.compile (membership id address registry.nextIdentity).1 idParams = .ok query)
    (executes : library.execute draw' query = .ok rows) :
    rows ≠ [] ↔ id ∈ media.map Medium.id := by
  obtain ⟨handle, node, leads, found, rfl⟩ := get_eq_ok.1 got
  obtain ⟨-, compiled⟩ := compile_eq_ok.1 compiled
  have peels' := Tree.peel_unlimited peels
  have root : registry.state.predicate peeled.root = registry.state.predicate node.unbound :=
    registry.state.predicate_root peels
  rw [State.compile_eq peels', ← registry.state.predicate_root peels', root] at compiled
  obtain ⟨⟨predicate, table⟩, plainly, rfl⟩ := Except.map_eq_ok.1 compiled
  refine rows_ne_nil_iff (fun predicate' table' lowered => ?_) rfl finds compiled' executes
  obtain ⟨_, _, same, besides, narrows⟩ := wellFormed.predicate_membership stored leads found lowered
  cases same.symm.trans plainly
  exact ⟨besides, narrows⟩

/-- For every stored collection whose name does not stand for the whole library, the name is found for a
medium if the ids of the collection without the limits at its root have that of the medium, whatever is
drawn for these and for the search.  The ids of the collection itself are a range of them under the same
draw: that of the outermost limit. -/
theorem mem_find_iff [RecordStore σ] (config : Config) (any : MediaLibrary) (store : σ) (nextIdentity : Nat)
    (operations : List (Operation σ)) (library : MemoryLibrary) (address : Address) (id : Int64) :
    let start : Registry σ := { config, library := any, store, nextIdentity }
    let registry := { start.performAll operations with library := library.toMediaLibrary }
    address.name ≠ allMedia → ¬ (address.space = .playlists ∧ address.name = activeName) →
    ∀ tree draws draw names ids, registry.get address = .ok tree →
      registry.find draws id address.space = .ok names →
      registry.queryIds draw tree [] 0 0 = .ok ids →
      ∃ peeled, tree.peel = .ok peeled ∧ ∀ draw', ∃ whole,
        registry.queryIds draw' tree.unlimited [] 0 0 = .ok whole ∧
        registry.queryIds draw' tree [] 0 0 = .ok ((peeled.limit.getD ⟨0, 0⟩).slice whole) ∧
        (address.name ∈ names ↔ id ∈ whole) := by
  intro start registry stored other tree draws draw names ids got finds answers
  have wellFormed : registry.state.WellFormed :=
    wellFormed_performAll (.empty : start.state.WellFormed) operations
  have memory : registry.library = library.toMediaLibrary := rfl
  obtain ⟨handle, node, leads, -, -⟩ := get_eq_ok.1 got
  have listed : address.name ∈ registry.list address.space :=
    SortedMap.mem_keys_iff.2 (Option.isSome_iff_exists.2 ⟨handle, leads⟩)
  obtain ⟨query, rows, compiled, executes, isFound⟩ := mem_find finds listed other
  obtain ⟨peeled, plain, media, peels, -, compiledPlain, found⟩ := exists_uncut memory answers
  refine ⟨peeled, peels, fun draw' => ?_⟩
  obtain ⟨foundPlain, own, -⟩ := found draw'
  refine ⟨(media draw').map Medium.id,
    (queryIds_eq_ok memory).2 ⟨plain, _, compiledPlain, foundPlain, rfl⟩, own, ?_⟩
  rw [requested_zero] at compiledPlain
  rw [isFound]
  exact rows_ne_nil_iff_stored wellFormed stored got peels compiledPlain foundPlain compiled executes

/-- Where a namespace has one collection, its name is found if the query for the medium has an answer. -/
theorem find_singleton {draws : String → Draw} {space : Namespace} {name : String}
    (only : registry.list space = [name]) (other : ¬ (space = .playlists ∧ name = activeName))
    {query : CompiledQuery}
    (compiled : registry.compile (membership id ⟨space, name⟩ registry.nextIdentity).1 idParams =
      .ok query) {row : Row} {rows : List Row}
    (executes : registry.library.execute (draws name) query = .ok (row :: rows)) :
    registry.find draws id space = .ok [name] := by
  have names : ([name].filter fun name => !(space == .playlists && name == activeName)) = [name] :=
    List.filter_cons_of_pos (isNamed other)
  have queries : [name].mapM (fun name => do
      return (name, ← registry.compile
        (membership id ⟨space, name⟩ registry.nextIdentity).1 idParams)) =
          Except.ok [(name, query)] :=
    List.mapM_eq_ok.2 (.cons (by rw [compiled]; rfl) .nil)
  unfold find
  rw [only, names]
  refine Except.bind_eq_ok.2 ⟨[(name, query)], queries,
    Except.bind_eq_ok.2 ⟨[(name, query)], ?_, rfl⟩⟩
  refine @List.filterM_of_ok _ _ _ (fun _ => true) _ fun entry member => ?_
  obtain rfl := List.mem_singleton.1 member
  exact Except.bind_eq_ok.2 ⟨row :: rows, executes, rfl⟩

/-! ## Finding the first medium -/

/-- A search for the second medium leads to the collection of the first one: the query for the medium
narrows that for all media. -/
theorem find_first (draws : String → Draw) :
    let start : Registry NoStore := { library := Sample.media.toMediaLibrary, store := {} }
    let registry := start.performAll [.serve (.save ⟨.collections, "First"⟩ Sample.first)]
    registry.find draws 2 .collections = .ok ["First"] := by
  intro start registry
  let one := (membership 2 ⟨.collections, "First"⟩ registry.nextIdentity).1
  let query : CompiledQuery := .assemble idParams ⟨[], none, one⟩
    (.all [.compare .id .equals (.integer 2) false, .always])
    (AliasTable.register { defaultBase := "url" } "id" false).2
  have compiled : registry.compile one idParams = .ok query := rfl
  have selects : ∀ medium ∈ Sample.media.media, query.selects medium =
      .ok (decide (medium.id = 2) && true) := fun medium member =>
    CompiledQuery.selects_besides (.of_id (.empty "url") false) (.all .always 2)
      (selects_first none medium member)
  have executes : registry.library.execute (draws "First") query = .ok [.ofList [("id", .integer 2)]] :=
    MemoryLibrary.execute_eq_ok rfl rfl rfl selects (draws "First")
  exact find_singleton rfl nofun compiled executes

theorem mem_find_iff_first :
    let start : Registry NoStore := { library := Sample.media.toMediaLibrary, store := {} }
    let saved := start.performAll [.serve (.save ⟨.collections, "First"⟩ Sample.first)]
    let registry := { saved with library := Sample.media.toMediaLibrary }
    registry.get ⟨.collections, "First"⟩ = .ok Sample.first ∧
      registry.find (fun _ => Sample.turned) 2 .collections = .ok ["First"] ∧
      registry.queryIds Sample.turned Sample.first [] 0 0 = .ok [1] ∧
      ∃ peeled, Sample.first.peel = .ok peeled ∧ ∀ draw', ∃ whole,
        registry.queryIds draw' Sample.first.unlimited [] 0 0 = .ok whole ∧
        registry.queryIds draw' Sample.first [] 0 0 = .ok ((peeled.limit.getD ⟨0, 0⟩).slice whole) ∧
        ("First" ∈ ["First"] ↔ 2 ∈ whole) := by
  intro start saved registry
  have answers : registry.queryIds Sample.turned Sample.first [] 0 0 = .ok [1] :=
    queryIds_of_selects rfl rfl rfl rfl (selects_first (some ⟨0, 1⟩))
  have found : registry.find (fun _ => Sample.turned) 2 .collections = .ok ["First"] := find_first _
  exact ⟨rfl, found, answers, mem_find_iff {} Sample.media.toMediaLibrary ({} : NoStore) 0
    [.serve (.save ⟨.collections, "First"⟩ Sample.first)] Sample.media ⟨.collections, "First"⟩ 2
    (by decide) nofun Sample.first (fun _ => Sample.turned) Sample.turned ["First"] [1] rfl found answers⟩

/-- The collection of the first medium is found for the second one, which is not among its ids. -/
theorem find_first_not_mem :
    let start : Registry NoStore := { library := Sample.media.toMediaLibrary, store := {} }
    let registry := start.performAll [.serve (.save ⟨.collections, "First"⟩ Sample.first)]
    registry.get ⟨.collections, "First"⟩ = .ok Sample.first ∧ (2 : Int64) ∉ [(1 : Int64)] ∧
      ∀ draws draw, registry.find draws 2 .collections = .ok ["First"] ∧
        registry.queryIds draw Sample.first [] 0 0 = .ok [1] := by
  intro start registry
  refine ⟨rfl, by decide, fun draws draw => ⟨find_first draws, ?_⟩⟩
  exact queryIds_of_selects rfl rfl rfl rfl (selects_first (some ⟨0, 1⟩))

end Registry

end Medley
