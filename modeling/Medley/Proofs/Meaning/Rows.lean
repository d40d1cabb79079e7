import Mathlib.Data.List.Nodup
import Mathlib.Data.List.Pairwise
import Mathlib.Data.List.Perm.Subperm
import Medley.Proofs.Media.Arrangement
import Medley.Proofs.Meaning.Paging

/-!
# Equal rows

A query answers with one row for each medium that it finds, and finds no medium twice.  Nothing takes
equal rows together though, so the rows differ exactly if any two of the media differ in a field that is
fetched (`State.nodup_execute_iff`).
-/

namespace Medley

namespace Medium

variable {medium first second : Medium} {fetch : List String}

/-- A row has the fields that are fetched and that the medium has. -/
theorem get?_row (medium : Medium) {fetch : List String} (fetches : fetch ≠ []) (field : String) :
    (medium.row fetch).get? field = if field ∈ fetch then medium.field? field else none := by
  have folded : ∀ row : Row,
      ((fetch.filterMap fun field => (medium.field? field).map fun value => (field, value)).foldl
        (fun row entry => row.insert entry.1 entry.2) row).get? field =
          ((if field ∈ fetch then medium.field? field else none).or (row.get? field)) := by
    clear fetches
    induction fetch with
    | nil => exact fun row => rfl
    | cons first rest ih =>
        intro row
        rw [List.filterMap_cons]
        cases has : medium.field? first with
        | none =>
            rw [Option.map_none, ih]
            by_cases same : field = first
            · simp [same, has]
            · simp [same]
        | some value =>
            rw [Option.map_some, List.foldl_cons, ih, SortedMap.get?_insert]
            by_cases same : field = first
            · by_cases later : first ∈ rest <;> simp [same, has, later]
            · simp [same]
  rw [row, if_neg (by simpa using fetches), SortedMap.ofList, folded, SortedMap.get?_empty,
    Option.or_none]

/-- The id is fetched if nothing else is. -/
theorem row_nil (medium : Medium) : medium.row [] = medium.row ["id"] := by
  simp [row, field?]

/-- Rows are equal exactly if all that is fetched is. -/
theorem row_eq_iff (fetches : fetch ≠ []) :
    first.row fetch = second.row fetch ↔ ∀ field ∈ fetch, first.field? field = second.field? field := by
  constructor
  · intro same field member
    have gets := congrArg (SortedMap.get? · field) same
    simpa only [get?_row _ fetches, if_pos member] using gets
  · intro same
    refine SortedMap.ext_get? fun field => ?_
    rw [get?_row _ fetches, get?_row _ fetches]
    by_cases member : field ∈ fetch
    · rw [if_pos member, if_pos member, same field member]
    · rw [if_neg member, if_neg member]

/-- The rows of media with different ids are different exactly if something fetched is. -/
theorem row_ne_iff (apart : first.id ≠ second.id) :
    first.row fetch ≠ second.row fetch ↔
      fetch = [] ∨ ∃ field ∈ fetch, first.field? field ≠ second.field? field := by
  by_cases fetches : fetch = []
  · have differs : first.field? "id" ≠ second.field? "id" := by simpa [field?] using apart
    rw [fetches, row_nil, row_nil, Ne, row_eq_iff (by decide), List.forall_mem_singleton]
    exact ⟨fun _ => .inl rfl, fun _ => differs⟩
  · rw [Ne, row_eq_iff fetches]
    simp [fetches]

end Medium

namespace CompiledQuery

/-- A query finds no medium twice. -/
theorem find_subperm {query : CompiledQuery} {draw : Draw} {media found : List Medium}
    (finds : query.find draw media = .ok found) : found.Subperm media := by
  rw [query.find_eq] at finds
  obtain ⟨selected, filters, rfl⟩ := Except.map_eq_ok.1 finds
  obtain ⟨keep, -, rfl⟩ := List.exists_of_filterM filters
  have left : (query.grouped (media.filter keep)).Sublist media :=
    (query.grouped_sublist _).trans List.filter_sublist
  exact (query.cut_sublist _).subperm.trans ((query.sorted_perm draw _).subperm.trans left.subperm)

end CompiledQuery

/-- The rows of an answer belong to media that are found once each.  They are different exactly if any two
of the media differ in a field that is fetched, be it that one of them lacks it. -/
theorem State.nodup_execute_iff {state : State} {defaultBase : String} {tree : Node}
    {params : QueryParams} {query : CompiledQuery} {library : MemoryLibrary} {draw : Draw}
    {rows : List Row} (compiled : state.compile defaultBase tree params = .ok query)
    (executes : library.execute draw query = .ok rows) :
    ∃ media, query.find draw library.media = .ok media ∧ media.Nodup ∧
      rows = media.map (·.row params.fetch) ∧
      (rows.Nodup ↔ ∀ first ∈ media, ∀ second ∈ media, first ≠ second →
        params.fetch = [] ∨ ∃ field ∈ params.fetch, first.field? field ≠ second.field? field) := by
  obtain ⟨media, finds, same⟩ := Except.bind_eq_ok.1 executes
  obtain rfl := Except.ok.inj same
  have rows : query.row = (·.row params.fetch) := funext (State.row_of_compile compiled)
  have found := CompiledQuery.find_subperm finds
  have apart : ∀ first ∈ library.media, ∀ second ∈ library.media, first ≠ second →
      first.id ≠ second.id := by
    have symm : Std.Symm fun first second : Medium => first.id ≠ second.id := ⟨fun _ _ => Ne.symm⟩
    exact fun first isFirst second isSecond differs =>
      (library.media_pairwise.imp fun lower => Int64.ne_of_lt lower).forall isFirst isSecond differs
  have distinct : library.media.Nodup :=
    library.media_pairwise.imp fun {first second} lower (same : first = second) =>
      absurd (same ▸ lower) Int64.lt_irrefl
  obtain ⟨some, permutes, within⟩ := found
  have nodup : media.Nodup := permutes.nodup_iff.1 (distinct.sublist within)
  refine ⟨media, finds, nodup, by rw [rows], ?_⟩
  rw [rows, List.nodup_map_iff_inj_on nodup]
  refine forall₂_congr fun first isFirst => forall₂_congr fun second isSecond => ?_
  rw [← not_imp_not]
  refine imp_congr_right fun differs => ?_
  exact Medium.row_ne_iff (apart first (within.subset (permutes.mem_iff.2 isFirst)) second
    (within.subset (permutes.mem_iff.2 isSecond)) differs)

/-- Two media by one artist have two rows with nothing but the artist. -/
theorem State.nodup_execute_iff_artist :
    let library : MemoryLibrary :=
      .ofList [(1, .ofList [("artist", .text "One"), ("url", .text "first")]),
        (2, .ofList [("artist", .text "One"), ("url", .text "second")])]
    let row : Row := .ofList [("artist", .text "One")]
    ∃ query, ({} : State).compile "url" (.everything ⟨1, none⟩) { fetch := ["artist"] } = .ok query ∧
      library.execute Sample.turned query = .ok [row, row] ∧
      ∃ media, query.find Sample.turned library.media = .ok media ∧ media.Nodup ∧
        [row, row] = media.map (·.row ["artist"]) ∧
        ([row, row].Nodup ↔ ∀ first ∈ media, ∀ second ∈ media, first ≠ second →
          ["artist"] = [] ∨ ∃ field ∈ ["artist"], first.field? field ≠ second.field? field) := by
  intro library row
  let query : CompiledQuery := .assemble { fetch := ["artist"] } ⟨[], none, .everything ⟨1, none⟩⟩
    .always { defaultBase := "url" }
  have compiled : ({} : State).compile "url" (.everything ⟨1, none⟩) { fetch := ["artist"] } =
      .ok query := rfl
  have selects : ∀ medium ∈ library.media, query.selects medium = .ok true := by
    have joins : ∀ medium ∈ library.media, query.joinsMedium medium = true := by decide +kernel
    intro medium member
    rw [CompiledQuery.selects, if_pos (joins medium member)]
    rfl
  have executes : library.execute Sample.turned query = .ok [row, row] :=
    MemoryLibrary.execute_eq_ok rfl rfl rfl selects _
  exact ⟨query, compiled, executes, nodup_execute_iff compiled executes⟩

end Medley
