import Medley.Proofs.Meaning.Paging

/-!
# Unions

A union is true of every medium that one of its operands is true of.  Its query joins what the filters
of all operands need, though, and its base may be the default one where that of an operand is not.  So
of the media that an operand finds, a union finds those that have all of this and no others
(`Registry.returns_operand`).
-/

namespace Medley

open Compiling

/-! ## What a union means -/

namespace Meaning

variable {meanings : List Meaning} {meaning : Meaning} {medium : Medium}

/-- A union is true of what one of its operands is true of. -/
theorem any_truth (member : meaning ∈ meanings) (holds : meaning.truth medium = some true) :
    (any meanings).truth medium = some true := by
  induction meanings with
  | nil => cases member
  | cons first rest ih =>
      show (first.truth medium).or ((any rest).truth medium) = some true
      rcases List.mem_cons.1 member with rfl | member
      · rw [holds]
        rfl
      · rw [ih member]
        rcases first.truth medium with _ | _ | _ <;> rfl

end Meaning

namespace State

variable {state : State} {operator : Operator} {operands : List Node}

theorem meaning_union {mark : Mark} (isUnion : operator.kind = .union) (some : operands ≠ []) :
    state.meaning (.node mark operator operands) = .any (operands.map state.meaning) := by
  rw [meaning, meaningWithin,
    Tree.meaning_of_view (Operator.view_of_union isUnion (by simpa using some))]
  rfl

theorem conditions_union {mark : Mark} (isUnion : operator.kind = .union) (some : operands ≠ []) :
    (state.meaning (.node mark operator operands)).conditions =
      operands.flatMap fun operand => (state.meaning operand).conditions := by
  rw [meaning_union isUnion some]
  exact List.flatMap_map ..

theorem exists_compile_of_total {tree : Node} {peeled : Peeled} (peels : tree.peel = .ok peeled)
    (total : Total (state.predicate tree)) (defaultBase : String) (params : QueryParams) :
    ∃ query, state.compile defaultBase tree params = .ok query ∧
      query.limit = queryRange params peeled.limit := by
  obtain ⟨result, lowered⟩ := total { defaultBase }
  rw [State.compile_eq peels, lowered]
  exact ⟨_, rfl, rfl⟩

/-- A union can be compiled if its operands can. -/
theorem exists_compile_union (mark : Mark) (isUnion : operator.kind = .union) (some : operands ≠ [])
    {defaultBase : String} {params : QueryParams}
    (compile : ∀ operand ∈ operands, ∃ query, state.compile defaultBase operand params = .ok query) :
    ∃ query, state.compile defaultBase (.node mark operator operands) params = .ok query ∧
      query.limit = queryRange params none := by
  have each : ∀ operand ∈ operands, Total (state.predicate operand) := by
    intro operand member
    obtain ⟨query, compiled⟩ := compile operand member
    obtain ⟨peeled, peels, -⟩ := Except.bind_eq_ok.1 compiled
    rw [State.compile_eq peels] at compiled
    obtain ⟨result, lowered, -⟩ := Except.map_eq_ok.1 compiled
    exact state.total_predicate (.refl operand) ⟨_, result, lowered⟩
  have peels : Tree.peel (.node mark operator operands) =
      .ok ⟨[], none, .node mark operator operands⟩ := by
    rw [Tree.peel_node, Operator.view_of_union isUnion some]
    rfl
  refine exists_compile_of_total peels ?_ defaultBase params
  simp only [predicate, predicateWithin_eq_lower] at each ⊢
  exact Tree.total_lower_commuting (.inl isUnion) some each

/-- What a query is made of: its predicate decides what the tree means, and the fields of the filters have
been asked for. -/
theorem exists_assemble {defaultBase : String} {tree : Node} {params : QueryParams}
    {query : CompiledQuery} (compiled : state.compile defaultBase tree params = .ok query) :
    ∃ peeled predicate, predicate.Decides (state.meaning tree) ∧
      CompiledQuery.assemble params peeled predicate
        (AliasTable.askAll { defaultBase } (state.meaning tree).conditions) = query := by
  obtain ⟨peeled, root, predicate, -, decides, -, same, -⟩ := compile_rearranged (.refl tree) compiled
  exact ⟨peeled, predicate, decides, same.symm⟩

end State

/-! ## What a union finds -/

/-- Whether a tree alone is compiled to a query, which finds certain media under a draw and is answered
with some fields of these. -/
structure Registry.Returns {σ : Type} (registry : Registry σ) (library : MemoryLibrary) (draw : Draw)
    (fetch : List String) (tree : Node) (query : CompiledQuery) (media : List Medium) : Prop where
  compiled : registry.compile tree { fetch } = .ok query
  finds : query.find draw library.media = .ok media
  answers : registry.query draw tree { fetch } = .ok (media.map fun medium => medium.row fetch)

namespace Registry

variable {σ : Type} {registry : Registry σ} {library : MemoryLibrary} {fetch : List String} {tree : Node}
  {query : CompiledQuery}

/-- A query finds media that it joins and that the tree is true of, and without a range all of these. -/
theorem exists_returns (memory : registry.library = library.toMediaLibrary)
    (compiled : registry.compile tree { fetch } = .ok query)
    (judged : ∀ condition ∈ (registry.state.meaning tree).conditions, ∀ medium ∈ library.media,
      condition.Judges medium) (draw : Draw) :
    ∃ media, registry.Returns library draw fetch tree query media ∧
      (∀ medium ∈ media, medium ∈ library.media ∧ query.joinsMedium medium = true ∧
        (registry.state.meaning tree).truth medium = some true) ∧
      (query.limit = none → ∀ medium ∈ library.media, query.joinsMedium medium = true →
        (registry.state.meaning tree).truth medium = some true → medium ∈ media) := by
  have compiledState := (compile_eq_ok.1 compiled).2
  obtain ⟨peeled, predicate, decides, isQuery⟩ := State.exists_assemble compiledState
  have ungrouped : query.groupBy = [] := isQuery ▸ rfl
  have selects : ∀ medium ∈ library.media, query.selects medium = .ok (query.joinsMedium medium &&
      (registry.state.meaning tree).truth medium == some true) := fun medium inside =>
    CompiledQuery.selects_of_decides (isQuery ▸ decides)
      fun condition member => judged condition member medium inside
  have finds := CompiledQuery.find_eq_ok ungrouped selects draw
  generalize isFound : query.sorted draw _ = ordered at finds
  have members : ∀ medium, medium ∈ ordered ↔ medium ∈ library.media ∧
      query.joinsMedium medium = true ∧ (registry.state.meaning tree).truth medium = some true := by
    intro medium
    rw [← isFound, CompiledQuery.mem_sorted, List.mem_filter, Bool.and_eq_true, beq_iff_eq]
  have rows : query.row = fun medium => medium.row fetch := funext (State.row_of_compile compiledState)
  refine ⟨_, ⟨compiled, finds, query_eq_ok.2 ⟨query, compiled, ?_⟩⟩, fun medium member => ?_,
    fun unlimited medium inside joins holds => ?_⟩
  · rw [memory]
    exact Except.bind_eq_ok.2 ⟨_, finds, by rw [rows]; rfl⟩
  · exact (members medium).1 ((query.cut_sublist _).subset member)
  · rw [CompiledQuery.cut_of_unlimited unlimited]
    exact (members medium).2 ⟨inside, joins, holds⟩

/-- A union passes the checks and can be compiled if that is true of its operands. -/
theorem exists_compile_union (mark : Mark) {operator : Operator} {operands : List Node}
    (isUnion : operator.kind = .union) (some : operands ≠ []) {params : QueryParams}
    (compile : ∀ operand ∈ operands, ∃ query, registry.compile operand params = .ok query) :
    ∃ query, registry.compile (.node mark operator operands) params = .ok query ∧
      query.limit = queryRange params none := by
  have parts := fun operand member => (compile operand member).imp fun _ => compile_eq_ok.1
  have valid : registry.state.validate (.node mark operator operands) none = .ok () := by
    refine State.validate_none.2 ((Tree.check_node ..).2 ⟨⟨.union operands, ?_, trivial⟩, ?_⟩)
    · exact Operator.view_of_union isUnion some
    · intro operand member
      obtain ⟨query, passes, -⟩ := parts operand member
      exact State.validate_none.1 passes
  obtain ⟨query, compiled, range⟩ := State.exists_compile_union mark isUnion some
    fun operand member => (parts operand member).imp fun _ => And.right
  exact ⟨query, compile_eq_ok.2 ⟨valid, compiled⟩, range⟩

/-- Of the media that an operand finds, a union finds those that have what the filters of all operands
need, and the default base if that is the base of the union and not of the operand, whatever is drawn for
either. -/
theorem returns_operand (memory : registry.library = library.toMediaLibrary) {mark : Mark}
    {operator : Operator} (isUnion : operator.kind = .union) {operands : List Node}
    (compile : ∀ operand ∈ operands, ∃ query, registry.compile operand { fetch } = .ok query)
    (judged : ∀ operand ∈ operands, ∀ condition ∈ (registry.state.meaning operand).conditions,
      ∀ medium ∈ library.media, condition.Judges medium)
    {operand : Node} (member : operand ∈ operands) (draw draw' : Draw) :
    let defaultBase := registry.config.defaultBaseField
    let conditions := operands.flatMap fun other => (registry.state.meaning other).conditions
    ∃ query found whole joint, registry.Returns library draw fetch operand query found ∧
      registry.Returns library draw' fetch (.node mark operator operands) whole joint ∧
      ∀ medium ∈ found, medium ∈ joint ↔
        (∀ condition ∈ conditions, ∀ property, condition.needed? = some property →
          medium.properties.contains property = true) ∧
        (whole.baseField = defaultBase → query.baseField ≠ defaultBase →
          CompiledQuery.RequiresDefault defaultBase conditions fetch →
          medium.properties.contains defaultBase = true) := by
  intro defaultBase conditions
  have nonempty : operands ≠ [] := List.ne_nil_of_mem member
  have asked : (registry.state.meaning (.node mark operator operands)).conditions = conditions :=
    State.conditions_union isUnion nonempty
  obtain ⟨query, compiled⟩ := compile operand member
  obtain ⟨whole, compiledWhole, unlimited⟩ := exists_compile_union mark isUnion nonempty compile
  obtain ⟨found, returns, owned, -⟩ := exists_returns memory compiled (judged operand member) draw
  obtain ⟨joint, returnsWhole, ownedWhole, complete⟩ := exists_returns memory compiledWhole (by
    rw [asked]
    intro condition inside
    obtain ⟨other, isOperand, inside⟩ := List.mem_flatMap.1 inside
    exact judged other isOperand condition inside) draw'
  refine ⟨query, found, whole, joint, returns, returnsWhole, fun medium isFound => ?_⟩
  obtain ⟨inside, joins, holds⟩ := owned medium isFound
  have holdsWhole : (registry.state.meaning (.node mark operator operands)).truth medium =
      some true := by
    rw [State.meaning_union isUnion nonempty]
    exact Meaning.any_truth (List.mem_map_of_mem member) holds
  have isJoint : medium ∈ joint ↔ whole.joinsMedium medium = true :=
    ⟨fun isJoint => (ownedWhole medium isJoint).2.1,
      fun joins => complete unlimited medium inside joins holdsWhole⟩
  obtain ⟨_, _, -, isQuery⟩ := State.exists_assemble (compile_eq_ok.1 compiled).2
  obtain ⟨_, _, -, isWhole⟩ := State.exists_assemble (compile_eq_ok.1 compiledWhole).2
  rw [CompiledQuery.joinsMedium_iff_default rfl isQuery] at joins
  rw [isJoint, CompiledQuery.joinsMedium_iff_default rfl isWhole, asked]
  refine and_congr_right fun _ => ⟨fun needs isDefault _ required => needs isDefault required,
    fun needs isDefault required => ?_⟩
  by_cases own : query.baseField = defaultBase
  · -- What the union requires, the operand does too.
    refine joins.2 own (required.imp id (And.imp id fun unnamed condition inside => ?_))
    exact unnamed condition (List.mem_flatMap.2 ⟨operand, member, inside⟩)
  · exact needs isDefault own required

end Registry

end Medley
