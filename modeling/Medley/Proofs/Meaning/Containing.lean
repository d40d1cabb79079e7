import Medley.Proofs.Media.Likeness
import Medley.Proofs.Meaning.Filtering

/-!
# What a word inside a text finds

A filter for a word inside a text puts the word between percent signs, so percent signs and underscores in it
are wildcards.  Where it does not bring two percent signs together, it is true of the texts with a part that
the word means, and so of those that have it inside if there are no wildcards in it
(`State.evaluate_word`).
-/

namespace Medley

namespace Condition

variable {field word : String} {caseSensitive : Bool} {value : Value}

/-- What a word says of a value, unless it brings two percent signs together. -/
theorem judgeValue_token (settled : Glob.Settled ('%' :: (word.toList ++ ['%']))) :
    ∃ found, judgeValue .token field word caseSensitive value = .ok (some found) ∧
      (found = true ↔ ∃ part, part <:+: value.toText.toList ∧ Glob.Like word.toList part) := by
  have pattern : ("%" ++ word ++ "%").toList = '%' :: (word.toList ++ ['%']) := by simp
  rw [← pattern] at settled
  obtain ⟨tokens, parses, same⟩ := Glob.exact_iff.2 settled
  refine ⟨Glob.isMatch false tokens value.toText, ?_, ?_⟩
  · rw [judgeValue, Value.isLike_eq_ok]
    exact ⟨tokens, parses, rfl⟩
  · rw [same, pattern]
    exact Glob.like_inside

end Condition

/-- A filter for a word inside the values of a property answers all of them, unless the word brings two
percent signs together: by whether a part of the text is what the word means, which is the word itself, in
upper or lower case, if there are no wildcards in it. -/
theorem State.evaluate_word (state : State) {mark : Mark} {operator : Operator} {whole : Node}
    {field word : String} {caseSensitive : Bool}
    (reads : operator.view [whole] = .ok (.filter .token (.property field) word caseSensitive whole))
    (everything : whole.isEverything = true) (property : field ≠ "id")
    (settled : Glob.Settled ('%' :: (word.toList ++ ['%']))) (defaultBase : String) (params : QueryParams) :
    ∃ query, state.compile defaultBase (.node mark operator [whole]) params = .ok query ∧
      ∀ medium value, medium.properties.get? field = some value →
        ∃ found, query.predicate.evaluate medium = .ok (some found) ∧
          query.selects medium = .ok found ∧
          (found = true ↔ ∃ part, part <:+: value.toText.toList ∧ Glob.Like word.toList part) ∧
          ('%' ∉ word.toList ∧ '_' ∉ word.toList → (found = true ↔
            word.toList.map Char.toLower <:+: value.toText.toList.map Char.toLower)) := by
  obtain ⟨query, compiled, evaluates, joins⟩ :=
    state.exists_compile_of_view reads everything rfl property defaultBase params
  refine ⟨query, compiled, fun medium value has => ?_⟩
  obtain ⟨found, judged, same⟩ := @Condition.judgeValue_token field word caseSensitive value settled
  have evaluated : query.predicate.evaluate medium = .ok (some found) := by
    rw [evaluates, Condition.judge, Medium.field?, if_neg property, has]
    exact judged
  have joined : query.joinsMedium medium = true :=
    joins medium (by rw [SortedMap.contains, has]; rfl)
  refine ⟨found, evaluated, ?_, same, fun plain => ?_⟩
  · rw [CompiledQuery.selects_of_joins joined, evaluated]
    cases found <;> rfl
  · rw [same, Glob.infix_map_iff]
    simp only [Glob.like_iff_of_plain plain]

/-- A title with a word in it that has a wildcard. -/
theorem State.evaluate_word_wild :
    let operator : Operator := .withAttributes (.filter .token) [(Key.field, "title"), (Key.value, "o_b")]
    let whole : Node := .everything ⟨1, none⟩
    operator.view [whole] = .ok (.filter .token (.property "title") "o_b" false whole) ∧
      whole.isEverything = true ∧ "title" ≠ "id" ∧
      Glob.Settled ('%' :: ("o_b".toList ++ ['%'])) ∧
      ∃ query, State.compile {} "url" (.node ⟨0, none⟩ operator [whole]) {} = .ok query ∧
        ∀ medium value, medium.properties.get? "title" = some value →
          ∃ found, query.predicate.evaluate medium = .ok (some found) ∧
            query.selects medium = .ok found ∧
            (found = true ↔ ∃ part, part <:+: value.toText.toList ∧ Glob.Like "o_b".toList part) ∧
            ('%' ∉ "o_b".toList ∧ '_' ∉ "o_b".toList → (found = true ↔
              "o_b".toList.map Char.toLower <:+: value.toText.toList.map Char.toLower)) := by
  intro operator whole
  have reads : operator.view [whole] = .ok (.filter .token (.property "title") "o_b" false whole) :=
    Tree.view_filter_word rfl ..
  have settled : Glob.Settled ('%' :: ("o_b".toList ++ ['%'])) :=
    Glob.settled_iff.2 (by simp [Glob.Settles])
  exact ⟨reads, rfl, by decide, settled, State.evaluate_word {} reads rfl (by decide) settled "url" {}⟩

/-- An underscore is found in a title without one. -/
theorem State.evaluate_underscore :
    let word : Node := .filter ⟨0, none⟩ (.filter .token) "title" "_" (.everything ⟨1, none⟩)
    ∃ query, State.compile {} "url" word {} = .ok query ∧
      query.predicate.evaluate ⟨1, .ofList [("title", .text "a")]⟩ = .ok (some true) ∧
      ¬ "_".toList.map Char.toLower <:+: (Value.text "a").toText.toList.map Char.toLower :=
  ⟨_, rfl, rfl, by decide⟩

end Medley
