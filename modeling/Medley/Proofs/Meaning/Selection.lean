import Medley.Proofs.Meaning.Drawing
import Medley.Proofs.Meaning.Evaluation

/-!
# What a query finds

A library in memory answers the query of a collection with the media that the collection means: those of
which it is true, among the ones that have the base field and every property that a comparison needs, in
the order of their ids (`State.execute_compile`).  A collection without orders at its root leaves nothing
to a draw.
-/

namespace Medley

namespace Tree

/-- Nothing is peeled off a root that is neither an order nor a limit. -/
theorem eq_of_peel {node : Node} {peeled : Peeled} (unordered : node.kind ≠ .order)
    (unlimited : node.kind ≠ .limit) (peels : node.peel = .ok peeled) :
    peeled = ⟨[], none, node⟩ := by
  obtain ⟨mark, operator, operands⟩ := node
  rw [peel_node] at peels
  obtain ⟨view, reads, peels⟩ := Except.bind_eq_ok.1 peels
  cases view with
  | order field direction operand => exact absurd (Operator.kind_of_view reads rfl) unordered
  | limit start length operand => exact absurd (Operator.kind_of_view reads rfl) unlimited
  | _ => exact (Except.ok.inj peels).symm

end Tree

/-- What it takes to be found by a query of a collection: to have the base field where it is asked for
and every property that a comparison needs, and that the collection is true of the medium. -/
structure Meaning.Finds (meaning : Meaning) (query : CompiledQuery) (defaultBase : String)
    (fetch : List String) (medium : Medium) : Prop where
  base : query.NeedsBase defaultBase meaning.conditions fetch →
    medium.properties.contains query.baseField = true
  needed : ∀ condition ∈ meaning.conditions, ∀ property, condition.needed? = some property →
    medium.properties.contains property = true
  holds : meaning.truth medium = some true

namespace MemoryLibrary

variable {library : MemoryLibrary} {query : CompiledQuery}

theorem media_pairwise (library : MemoryLibrary) :
    library.media.Pairwise fun left right => left.id < right.id := by
  rw [media, List.pairwise_map]
  exact library.sorted.imp fun before => compareOfLessAndEq_eq_lt.1 before

/-- A query that neither groups nor orders nor cuts answers with the media that it selects. -/
theorem execute_eq_ok {keep : Medium → Bool} (ungrouped : query.groupBy = [])
    (unordered : query.orderBy = []) (unlimited : query.limit = none)
    (selects : ∀ medium ∈ library.media, query.selects medium = .ok (keep medium)) (draw : Draw) :
    library.execute draw query = .ok ((library.media.filter keep).map query.row) := by
  rw [execute, CompiledQuery.find_of_unordered ungrouped unordered selects,
    CompiledQuery.cut_of_unlimited unlimited]
  rfl

end MemoryLibrary

namespace State

variable {state : State} {defaultBase : String} {tree : Node} {fetch : List String}
  {query : CompiledQuery}

/-- A tree whose root is neither an order nor a limit is compiled from its own predicate. -/
theorem exists_of_compile {params : QueryParams} (unordered : tree.kind ≠ .order)
    (unlimited : tree.kind ≠ .limit) (compiled : state.compile defaultBase tree params = .ok query) :
    ∃ predicate, predicate.Decides (state.meaning tree) ∧
      query = .assemble params ⟨[], none, tree⟩ predicate
        (AliasTable.askAll { defaultBase } (state.meaning tree).conditions) := by
  obtain ⟨peeled, peels, compiled⟩ := Except.bind_eq_ok.1 compiled
  obtain rfl := Tree.eq_of_peel unordered unlimited peels
  obtain ⟨⟨predicate, table⟩, lowered, compiled⟩ := Except.bind_eq_ok.1 compiled
  obtain ⟨rfl, decides⟩ := state.lowers_predicate tree _ (.empty defaultBase) predicate table lowered
  exact ⟨predicate, decides, (Except.ok.inj compiled).symm⟩

/-- A library answers with the media that a collection finds, in the order of their ids, whatever is
drawn. -/
theorem execute_compile (library : MemoryLibrary) (unordered : tree.kind ≠ .order)
    (unlimited : tree.kind ≠ .limit) (compiled : state.compile defaultBase tree { fetch } = .ok query)
    (judged : ∀ condition ∈ (state.meaning tree).conditions, ∀ medium ∈ library.media,
      condition.Judges medium) :
    ∃ media : List Medium, media.Pairwise (fun left right => left.id < right.id) ∧
      (∀ medium, medium ∈ media ↔ medium ∈ library.media ∧
        (state.meaning tree).Finds query defaultBase fetch medium) ∧
      ∀ draw, library.execute draw query = .ok (media.map query.row) := by
  obtain ⟨predicate, decides, rfl⟩ := exists_of_compile unordered unlimited compiled
  generalize same : CompiledQuery.assemble _ _ predicate _ = query
  have ungrouped : ({ fetch } : QueryParams).group = [] := rfl
  have joins := CompiledQuery.joinsMedium_assemble defaultBase (state.meaning tree).conditions
    ungrouped ⟨[], none, tree⟩ predicate
  simp only [same] at joins
  have selects : ∀ medium ∈ library.media, query.selects medium =
      .ok (query.joinsMedium medium && (state.meaning tree).truth medium == some true) := by
    intro medium member
    have evaluates := decides medium fun condition inside => judged condition inside medium member
    rw [CompiledQuery.selects]
    cases query.joinsMedium medium with
    | false => rfl
    | true =>
        have asked : query.predicate = predicate := same ▸ rfl
        rw [if_pos rfl, asked, evaluates]
        rfl
  refine ⟨_, library.media_pairwise.filter _, fun medium => ?_,
    MemoryLibrary.execute_eq_ok (same ▸ rfl) (same ▸ rfl) (same ▸ rfl) selects⟩
  rw [List.mem_filter, Bool.and_eq_true, joins, beq_iff_eq]
  exact and_congr_right fun _ =>
    ⟨fun ⟨⟨base, needed⟩, holds⟩ => ⟨base, needed, holds⟩,
      fun finds => ⟨⟨finds.base, finds.needed⟩, finds.holds⟩⟩

/-- Media of another genre than the one that a stored collection is about. -/
theorem execute_compile_complement :
    let rock : Node := .filter ⟨0, none⟩ (.filter .equals) "genre" "Rock" (.everything ⟨1, none⟩)
    let state : State :=
      { slots := [some rock], collections := SortedMap.ofList [("Rock", ⟨0⟩)] }
    let tree : Node := .unary ⟨2, none⟩ { kind := .complement }
      (.reference ⟨3, none⟩ "Rock" "Collections")
    let library : MemoryLibrary := SortedMap.ofList
      [(3, SortedMap.ofList [("genre", .text "Jazz")]), (2, ∅),
        (1, SortedMap.ofList [("genre", .text "rock")])]
    ∃ query, state.compile "url" tree { fetch := ["genre"] } = .ok query ∧
      ∃ media : List Medium, media.Pairwise (fun left right => left.id < right.id) ∧
        (∀ medium, medium ∈ media ↔ medium ∈ library.media ∧
          (state.meaning tree).Finds query "url" ["genre"] medium) ∧
        ∀ draw, library.execute draw query = .ok (media.map query.row) := by
  intro rock state tree library
  have conditions : (state.meaning tree).conditions = [.compares .equals "genre" "Rock" false] := rfl
  refine ⟨_, rfl, execute_compile library nofun nofun rfl fun condition member medium _ => ?_⟩
  rw [conditions, List.mem_singleton] at member
  subst member
  exact Condition.judges_compares .equals nofun nofun "genre" "Rock" false medium

/-- An empty base field is asked for where it comes from the settings and nothing names it, so not every
medium that a collection is true of need be found. -/
theorem execute_empty_base :
    let state : State := {}
    let tree : Node := .everything ⟨0, none⟩
    let library : MemoryLibrary := SortedMap.ofList [(1, ∅)]
    ∃ query, state.compile "" tree {} = .ok query ∧ ∀ draw,
      ¬ ∃ media : List Medium, media.Pairwise (fun left right => left.id < right.id) ∧
        (∀ medium, medium ∈ media ↔ medium ∈ library.media ∧
          (query.baseField ≠ "" → medium.properties.contains query.baseField = true) ∧
          (∀ condition ∈ (state.meaning tree).conditions, ∀ property,
            condition.needed? = some property → medium.properties.contains property = true) ∧
          (state.meaning tree).truth medium = some true) ∧
        library.execute draw query = .ok (media.map query.row) := by
  intro state tree library
  let query := CompiledQuery.assemble {} ⟨[], none, tree⟩ .always { defaultBase := "" }
  refine ⟨query, rfl, fun draw => ?_⟩
  rintro ⟨media, -, members, executes⟩
  have found : (⟨1, ∅⟩ : Medium) ∈ media :=
    (members _).2 ⟨.head _, fun named => absurd rfl named, fun _ member => (nomatch member), rfl⟩
  have selects : ∀ medium ∈ library.media, query.selects medium = .ok false := by
    intro medium member
    obtain rfl := List.mem_singleton.1 member
    rfl
  have nothing := (MemoryLibrary.execute_eq_ok rfl rfl rfl selects draw).symm.trans executes
  have noMedia := List.map_eq_nil_iff.1 (Except.ok.inj nothing).symm
  rw [noMedia] at found
  cases found

end State

end Medley
