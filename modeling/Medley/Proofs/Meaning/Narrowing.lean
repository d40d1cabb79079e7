import Medley.Proofs.Media.Classes
import Medley.Proofs.Meaning.Quoting

/-!
# Telling upper and lower case apart

A filter that tells upper and lower case apart compares its pattern as it is written, else percent signs and
underscores take the place of stars and question marks, and brackets stand for themselves.  So it selects
fewer media, except that it may select others if there is a class of characters in its pattern
(`State.exists_compile_insensitive`).
-/

namespace Medley

/-! ## Patterns as they are written -/

namespace Pattern

open Glob

variable {pattern text : List Char} {tokens : List GlobToken}

/-- Without a class, a pattern matches nothing but what it is compared as when case is ignored. -/
theorem covers_of_reads (reads : Reads pattern tokens) (plain : '[' ∉ pattern)
    (found : Matches true tokens text) : Covers (pattern.map likeMark) text := by
  induction reads generalizing text with
  | nil => exact found
  | @char char rest tokens other later ih =>
      obtain ⟨first, text, rfl, accepts, found⟩ := found
      obtain rfl : first = char := beq_iff_eq.1 accepts
      have covers := ih (fun inside => plain (.tail _ inside)) found
      simp only [List.mem_cons, List.not_mem_nil, or_false, not_or] at other
      have itself : likeMark first = first := by rw [likeMark, if_neg other.2.1, if_neg other.1]
      rw [List.map_cons, itself]
      by_cases percent : first = '%'
      · exact percent ▸ @covers_percent _ [first] text covers
      · exact (covers_single percent).2 ⟨first, text, rfl, .inr (beq_self_eq_true _), covers⟩
  | any later ih =>
      obtain ⟨first, text, rfl, -, found⟩ := found
      exact (covers_single (by decide)).2
        ⟨first, text, rfl, .inl rfl, ih (fun inside => plain (.tail _ inside)) found⟩
  | run alone later ih =>
      obtain ⟨before, after, rfl, found⟩ := found
      exact covers_percent (ih (fun inside => plain (.tail _ inside)) found)
  | last => exact covers_last
  | components later ih =>
      obtain ⟨before, after, rfl, ends, found⟩ := precedes_anyComponents.1 found
      exact covers_components.2 ⟨before, after, rfl, ends, ih (fun inside => plain (by simp [inside])) found⟩
  | oneClass => exact absurd (.head _) plain

/-- Every bracket of a pattern is in what it is compared as when case is ignored. -/
theorem countP_isBracket_of_covers (covers : Covers pattern text) :
    pattern.countP isBracket ≤ text.countP isBracket := by
  induction pattern, text using Covers.induct with
  | case1 text => exact Nat.zero_le _
  | case2 pattern text ih =>
      obtain ⟨before, after, rfl, -, later⟩ := covers_components.1 covers
      rw [List.countP_append]
      exact Nat.le_trans (by simpa [isBracket] using ih after later) (Nat.le_add_left ..)
  | case3 pattern text apart ih =>
      obtain ⟨before, after, rfl, later⟩ := (covers_run fun more => apart more rfl).1 covers
      rw [List.countP_append]
      exact Nat.le_trans (by simpa [isBracket] using ih after later) (Nat.le_add_left ..)
  | case4 char pattern text _ other ih =>
      obtain ⟨first, rest, rfl, same, later⟩ := (covers_single other).1 covers
      refine countP_cons_le (fun char bracket => ?_) same (ih rest later)
      rcases Bool.or_eq_true_iff.1 bracket with opens | closes
      · obtain rfl := beq_iff_eq.1 opens
        decide
      · obtain rfl := beq_iff_eq.1 closes
        decide

theorem isBracket_likeMark (char : Char) : isBracket (likeMark char) = isBracket char := by
  unfold likeMark
  split
  · next star => rw [star]; rfl
  · split
    · next any => rw [any]; rfl
    · rfl

/-- If a pattern with a class matches anything, it matches a text that it is not compared as when case is
ignored. -/
theorem exists_matches_not_covers (reads : Reads pattern tokens) (opens : '[' ∈ pattern)
    (found : Matches true tokens text) :
    ∃ text, Matches true tokens text ∧ ¬ Covers (pattern.map likeMark) text := by
  obtain ⟨least, found, closed⟩ := reads.exists_matches found
  refine ⟨least, found, fun covers => ?_⟩
  have kept := countP_isBracket_of_covers covers
  rw [List.countP_map, show isBracket ∘ likeMark = isBracket from funext isBracket_likeMark] at kept
  exact absurd (Nat.le_trans kept closed) (Nat.not_le.2 (count_lt_of_opens opens))

end Pattern

/-! ## Values -/

namespace Condition

variable {test : FilterTest} {field word : String} {value : Value}

theorem judgeValue_pattern_eq_true : judgeValue .pattern field word true value = .ok (some true) ↔
    ∃ tokens, Glob.parse word = .ok tokens ∧ Glob.Matches true tokens value.toText.toList := by
  rw [judgeValue, if_pos rfl, Value.isLike_eq_ok]
  refine exists_congr fun tokens => and_congr_right fun _ => ?_
  rw [← Glob.isMatch_iff, Option.some.injEq, eq_comm]

theorem judgeValue_insensitive_eq_true : judgeValue .pattern field word false value = .ok (some true) ↔
    Glob.Whole false (likePattern word).toList ∧
      Glob.Covers (likePattern word).toList value.toText.toList := by
  rw [judgeValue, if_neg Bool.false_ne_true, Value.isLike_ofLike_eq_true]

theorem isWanted_insensitive (wanted : isWanted field word true value = true) :
    isWanted field word false value = true := by
  unfold isWanted at wanted ⊢
  split at wanted
  · exact wanted
  · have same : value.toText = word := beq_iff_eq.1 wanted
    rw [same]
    exact beq_self_eq_true _

/-- A value that is accepted with its case is accepted without, if the pattern has no class and can still be
read. -/
theorem judgeValue_insensitive (compared : test = .equals ∨ test = .pattern)
    (plain : test = .pattern → '[' ∉ word.toList)
    (whole : test = .pattern → (∃ tokens, Glob.parse word = .ok tokens) →
      Glob.Whole false (likePattern word).toList)
    (accepted : judgeValue test field word true value = .ok (some true)) :
    judgeValue test field word false value = .ok (some true) := by
  rcases compared with rfl | rfl
  · have wanted : isWanted field word true value = true := by simpa [judgeValue] using accepted
    rw [judgeValue, isWanted_insensitive wanted]
  · obtain ⟨tokens, parses, found⟩ := judgeValue_pattern_eq_true.1 accepted
    refine judgeValue_insensitive_eq_true.2 ⟨whole rfl ⟨tokens, parses⟩, ?_⟩
    rw [Pattern.toList_likePattern]
    exact Pattern.covers_of_reads (Glob.reads_of_parse parses) (plain rfl) found

/-- A pattern with a class that accepts anything accepts a text that it does not when case is ignored. -/
theorem exists_judgeValue_sensitive (opens : '[' ∈ word.toList)
    (accepted : judgeValue .pattern field word true value = .ok (some true)) :
    ∃ text : String, judgeValue .pattern field word true (.text text) = .ok (some true) ∧
      judgeValue .pattern field word false (.text text) ≠ .ok (some true) := by
  obtain ⟨tokens, parses, found⟩ := judgeValue_pattern_eq_true.1 accepted
  obtain ⟨text, found, apart⟩ :=
    Pattern.exists_matches_not_covers (Glob.reads_of_parse parses) opens found
  refine ⟨String.ofList text, judgeValue_pattern_eq_true.2 ⟨tokens, parses, ?_⟩, fun ignored => apart ?_⟩
  · rwa [Value.toText, String.toList_ofList]
  · have covers := (judgeValue_insensitive_eq_true.1 ignored).2
    rwa [Value.toText, String.toList_ofList, Pattern.toList_likePattern] at covers

end Condition

/-! ## Filters -/

/-- A filter that is told to tell upper and lower case apart is the same filter otherwise. -/
theorem Operator.view_setAttribute_caseSensitive {ω : Type} {operator : Operator} {test : FilterTest}
    {field : Field} {word : String} {caseSensitive : Bool} {operand : ω}
    (reads : operator.view [operand] = .ok (.filter test field word caseSensitive operand)) :
    (operator.setAttribute Key.caseSensitive "true").view [operand] =
      .ok (.filter test field word true operand) := by
  obtain ⟨kind, required, looks, number, -⟩ := view_filter_eq_ok.1 reads
  have others (key : String) (other : key ≠ Key.caseSensitive) :
      (operator.setAttribute Key.caseSensitive "true").attributes.get? key =
        operator.attributes.get? key := by
    rw [setAttribute, SortedMap.get?_insert, if_neg other]
  refine view_filter_eq_ok.2 ⟨kind, ?_, ?_, number, ?_⟩
  · rw [require, others _ (by decide)]
    exact required
  · rw [filterField, require, others _ (by decide), others _ (by decide)]
    exact looks
  · rw [caseSensitivity, setAttribute, SortedMap.get?_insert, if_pos rfl]
    rfl

/-- A filter that tells upper and lower case apart is compiled without that as well, and still selects what
it selected, unless its pattern has a class of characters; provided that the pattern can still be read if
percent signs stand for any run.  With a class it loses media of the whole library if it selects any. -/
theorem State.exists_compile_insensitive (state : State) {mark : Mark} {operator : Operator}
    {operand : Node} {test : FilterTest} {field word : String}
    (reads : operator.view [operand] = .ok (.filter test (.property field) word false operand))
    (compared : test = .equals ∨ test = .pattern)
    (whole : test = .pattern → (∃ tokens, Glob.parse word = .ok tokens) →
      Glob.Whole false (Condition.likePattern word).toList)
    (defaultBase : String) (params : QueryParams) {sensitive : CompiledQuery}
    (compiled : state.compile defaultBase
      (.node mark (operator.setAttribute Key.caseSensitive "true") [operand]) params = .ok sensitive) :
    ∃ query, state.compile defaultBase (.node mark operator [operand]) params = .ok query ∧
      ((test = .pattern → '[' ∉ word.toList) →
        ∀ medium, sensitive.selects medium = .ok true → query.selects medium = .ok true) ∧
      (operand.isEverything = true → field ≠ "id" →
        ((∀ medium, sensitive.selects medium = .ok true → query.selects medium = .ok true) ↔
          (test = .pattern → '[' ∈ word.toList → ∀ medium, sensitive.selects medium ≠ .ok true))) := by
  have reads' := Operator.view_setAttribute_caseSensitive reads
  have wordy : test.isNumeric = false := by rcases compared with rfl | rfl <;> rfl
  obtain ⟨query, compiled', weaker⟩ := State.exists_compile_weaker reads' reads wordy compiled
  have keeps (plain : test = .pattern → '[' ∉ word.toList) (medium : Medium) :
      sensitive.selects medium = .ok true → query.selects medium = .ok true := by
    refine weaker medium fun judged => ?_
    obtain ⟨value, has, accepted⟩ := Condition.judge_eq_true.1 judged
    exact Condition.judge_eq_true.2
      ⟨value, has, Condition.judgeValue_insensitive compared plain whole accepted⟩
  refine ⟨query, compiled', keeps, fun everything property => ⟨?_, fun nothing medium selected =>
    keeps (fun isPattern opens => nothing isPattern opens medium selected) medium selected⟩⟩
  rintro others rfl opens medium selected
  obtain ⟨_, same, accepts⟩ :=
    state.exists_compile_selects reads' everything wordy property defaultBase params
  obtain rfl := Except.ok.inj (compiled.symm.trans same)
  obtain ⟨_, same', accepts'⟩ :=
    state.exists_compile_selects reads everything wordy property defaultBase params
  obtain rfl := Except.ok.inj (compiled'.symm.trans same')
  obtain ⟨value, -, accepted⟩ := Condition.judge_eq_true.1 ((accepts medium).1 selected)
  obtain ⟨text, accepted, apart⟩ := Condition.exists_judgeValue_sensitive opens accepted
  have has : Medium.field? ⟨0, .ofList [(field, .text text)]⟩ field = some (.text text) := by
    simp [Medium.field?, property, SortedMap.ofList]
  have selected := others _ ((accepts _).2 (Condition.judge_eq_true.2 ⟨_, has, accepted⟩))
  obtain ⟨_, has', accepted'⟩ := Condition.judge_eq_true.1 ((accepts' _).1 selected)
  obtain rfl := Option.some.inj (has.symm.trans has')
  exact apart accepted'

/-- Titles that begin with a capital letter. -/
theorem State.exists_compile_insensitive_initial :
    let operator : Operator :=
      .withAttributes (.filter .pattern) [(Key.field, "title"), (Key.value, "S*")]
    let whole : Node := .everything ⟨1, none⟩
    ∃ sensitive,
      (operator.view [whole] = .ok (.filter .pattern (.property "title") "S*" false whole) ∧
        Glob.Whole false (Condition.likePattern "S*").toList ∧
        State.compile {} "url"
          (.node ⟨0, none⟩ (operator.setAttribute Key.caseSensitive "true") [whole]) {} = .ok sensitive) ∧
      ∃ query, State.compile {} "url" (.node ⟨0, none⟩ operator [whole]) {} = .ok query ∧
        ((FilterTest.pattern = .pattern → '[' ∉ "S*".toList) →
          ∀ medium, sensitive.selects medium = .ok true → query.selects medium = .ok true) ∧
        (whole.isEverything = true → "title" ≠ "id" →
          ((∀ medium, sensitive.selects medium = .ok true → query.selects medium = .ok true) ↔
            (FilterTest.pattern = .pattern → '[' ∈ "S*".toList →
              ∀ medium, sensitive.selects medium ≠ .ok true))) := by
  intro operator whole
  have reads : operator.view [whole] = .ok (.filter .pattern (.property "title") "S*" false whole) :=
    Tree.view_filter_word rfl ..
  have components : Glob.Whole false (Condition.likePattern "S*").toList := by
    rw [Pattern.toList_likePattern]
    exact .single (by decide) (.run (by decide) .nil)
  exact ⟨_, ⟨reads, components, rfl⟩,
    State.exists_compile_insensitive {} reads (.inr rfl) (fun _ _ => components) "url" {} rfl⟩

/-- A class of one character selects it, but the same pattern does not if case is ignored. -/
theorem State.selects_class :
    let operator : Operator :=
      .withAttributes (.filter .pattern) [(Key.field, "title"), (Key.value, "[a]")]
    let whole : Node := .everything ⟨1, none⟩
    let medium : Medium := ⟨1, .ofList [("title", .text "a")]⟩
    ∃ sensitive query,
      State.compile {} "url"
        (.node ⟨0, none⟩ (operator.setAttribute Key.caseSensitive "true") [whole]) {} = .ok sensitive ∧
      State.compile {} "url" (.node ⟨0, none⟩ operator [whole]) {} = .ok query ∧
      sensitive.selects medium = .ok true ∧ query.selects medium ≠ .ok true := by
  intro operator whole medium
  have reads : operator.view [whole] = .ok (.filter .pattern (.property "title") "[a]" false whole) :=
    Tree.view_filter_word rfl ..
  obtain ⟨sensitive, compiled, selects⟩ := State.exists_compile_selects {}
    (Operator.view_setAttribute_caseSensitive reads) rfl rfl (by decide) "url" {}
  obtain ⟨query, compiled', selects'⟩ := State.exists_compile_selects {} reads rfl rfl (by decide) "url" {}
  refine ⟨sensitive, query, compiled, compiled', (selects medium).2 rfl, fun selected => ?_⟩
  obtain ⟨_, has, accepted⟩ := Condition.judge_eq_true.1 ((selects' medium).1 selected)
  obtain rfl : Value.text "a" = _ := Option.some.inj has
  have covers := (Condition.judgeValue_insensitive_eq_true.1 accepted).2
  rw [Pattern.toList_likePattern] at covers
  exact absurd (Pattern.countP_isBracket_of_covers covers) (by decide)

end Medley
