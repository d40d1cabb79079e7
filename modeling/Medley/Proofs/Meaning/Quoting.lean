import Medley.Proofs.Media.Likeness
import Medley.Proofs.Meaning.Filtering
import Medley.Proofs.Pattern.Spelling

/-!
# What quoted words select

A quoted word means texts: a star and a question mark without a backslash stand for other characters, all
else for itself.  A word without such wildcards is compared as it is.  In the pattern of any other word a
backslash is forgotten, percent signs and underscores are wildcards too, and two stars in a row are more
than a run of characters, so the values selected are those that the word means only where nothing of this
shows (`Pattern.selects_quoted_iff`).
-/

namespace Medley

namespace Pattern

/-! ## The texts that a word means -/

/-- The texts that a word means: a star that is not escaped stands for any run of characters, a question
mark for one, and every other character for itself in upper or lower case. -/
def Means : List Lexeme → List Char → Prop
  | [], text => text = []
  | ⟨'*', false⟩ :: word, text => ∃ before after, text = before ++ after ∧ Means word after
  | ⟨'?', false⟩ :: word, text => ∃ char rest, text = char :: rest ∧ Means word rest
  | lexeme :: word, text => ∃ char rest, text = char :: rest ∧
      sameChar false char lexeme.char = true ∧ Means word rest

/-- Whether a character that stands for itself becomes a wildcard in the pattern of a word. -/
def Lexeme.Turns (lexeme : Lexeme) : Prop :=
  lexeme.char ∈ ['%', '_'] ∨ lexeme.escaped = true ∧ lexeme.char ∈ ['*', '?']

/-- Whether a word keeps its meaning when it is compared: it has no wildcards, or else none of its other
characters becomes one, and two stars in a row come only at its end, behind a slash or at the start. -/
inductive Kept (word : List Lexeme) : Prop where
  | plain (plain : ∀ lexeme ∈ word, lexeme.isWildcard = false)
  | wild (keeps : ∀ lexeme ∈ word, ¬ lexeme.Turns)
      (stars : ∀ before after, word = before ++ ⟨'*', false⟩ :: ⟨'*', false⟩ :: after →
        after = [] ∧ (before = [] ∨ before.getLast?.map Lexeme.char = some '/'))

variable {lexeme : Lexeme} {word : List Lexeme} {text : List Char}

theorem means_run : Means (⟨'*', false⟩ :: word) text ↔
    ∃ before after, text = before ++ after ∧ Means word after := Iff.rfl

theorem means_any : Means (⟨'?', false⟩ :: word) text ↔
    ∃ char rest, text = char :: rest ∧ Means word rest := Iff.rfl

theorem means_itself (plain : lexeme.isWildcard = false) : Means (lexeme :: word) text ↔
    ∃ char rest, text = char :: rest ∧ sameChar false char lexeme.char = true ∧ Means word rest := by
  rw [Means]
  · rintro rfl
    exact absurd plain (by decide)
  · rintro rfl
    exact absurd plain (by decide)

theorem lexeme_cases (lexeme : Lexeme) :
    lexeme = ⟨'*', false⟩ ∨ lexeme = ⟨'?', false⟩ ∨ lexeme.isWildcard = false := by
  rcases lexeme with ⟨char, _ | _⟩
  · by_cases star : char = '*'
    · exact .inl (star ▸ rfl)
    by_cases any : char = '?'
    · exact .inr (.inl (any ▸ rfl))
    · exact .inr (.inr (by simp [Lexeme.isWildcard, star, any]))
  · exact .inr (.inr rfl)

/-- A word without wildcards means its own text, in upper or lower case. -/
theorem means_iff_of_plain (plain : ∀ lexeme ∈ word, lexeme.isWildcard = false) :
    Means word text ↔ text.map Char.toLower = word.map (·.char.toLower) := by
  induction word generalizing text with
  | nil => simp [Means]
  | cons lexeme word ih =>
      rw [means_itself (plain lexeme (.head _))]
      simp only [ih fun other member => plain other (.tail _ member)]
      cases text with
      | nil => simp
      | cons char rest => simp [sameChar]

/-! ## The pattern of a word -/

/-- The character of the pattern of a word for a character of the word. -/
def likeMark (char : Char) : Char := if char = '*' then '%' else if char = '?' then '_' else char

theorem toList_likePattern (word : String) :
    (Condition.likePattern word).toList = word.toList.map likeMark := String.toList_map

theorem toList_likePattern_word (word : List Lexeme) :
    (Condition.likePattern (wordText word)).toList = word.map fun lexeme => likeMark lexeme.char := by
  rw [toList_likePattern, wordText, String.toList_ofList, List.map_map]
  rfl

/-- The characters that stand for others in a word or in its pattern. -/
def marks : List Char := ['*', '?', '%', '_']

theorem caseless_of_mem_marks {mark : Char} (member : mark ∈ marks) :
    mark.isLower = false ∧ mark.toLower = mark := by
  simp only [marks, List.mem_cons, List.not_mem_nil, or_false] at member
  rcases member with rfl | rfl | rfl | rfl <;> exact ⟨rfl, rfl⟩

theorem likeMark_of_not_mem {char : Char} (other : char ∉ marks) : likeMark char = char := by
  simp only [marks, List.mem_cons, List.not_mem_nil, or_false, not_or] at other
  rw [likeMark, if_neg other.1, if_neg other.2.1]

/-- Only a wildcard of the word is one of its pattern. -/
theorem Lexeme.not_mem_marks (plain : lexeme.isWildcard = false) (keeps : ¬ lexeme.Turns) :
    lexeme.char ∉ marks := by
  obtain ⟨char, escaped⟩ := lexeme
  simp only [Turns, not_or, not_and] at keeps
  cases escaped with
  | true =>
      have unlike := keeps.2 rfl
      simp_all [marks]
  | false => simp_all [marks, isWildcard]

/-- A word of which no character becomes a wildcard means what its pattern does. -/
theorem means_iff_like (keeps : ∀ lexeme ∈ word, ¬ lexeme.Turns) :
    Means word text ↔ Glob.Like (word.map fun lexeme => likeMark lexeme.char) text := by
  induction word generalizing text with
  | nil => exact Iff.rfl
  | cons lexeme word ih =>
      have later := fun text => @ih text fun other member => keeps other (.tail _ member)
      rw [List.map_cons]
      rcases lexeme_cases lexeme with rfl | rfl | plain
      · rw [means_run]
        simp only [later]
        exact Glob.like_percent.symm
      · rw [means_any, show likeMark '?' = '_' from rfl, Glob.like_single (by decide)]
        simp only [later, true_or, true_and]
      · have other := Lexeme.not_mem_marks plain (keeps lexeme (.head _))
        rw [means_itself plain, likeMark_of_not_mem other]
        simp only [marks, List.mem_cons, List.not_mem_nil, or_false, not_or] at other
        rw [Glob.like_single other.2.2.1]
        simp only [later, other.2.2.2, false_or]

/-! ## Words that lose their meaning -/

theorem not_mem_marks_of_mem_least {pattern : List Char} {char : Char}
    (plain : '*' ∉ pattern ∧ '?' ∉ pattern) (member : char ∈ Glob.least pattern) : char ∉ marks := by
  obtain ⟨wanted, inside, rfl⟩ := List.mem_map.1 member
  obtain ⟨inside, other⟩ := List.mem_filter.1 inside
  have star : wanted ≠ '*' := fun same => plain.1 (same ▸ inside)
  have any : wanted ≠ '?' := fun same => plain.2 (same ▸ inside)
  split
  · decide
  · simp_all [marks]

theorem likeMark_ne (char : Char) : likeMark char ≠ '*' ∧ likeMark char ≠ '?' := by
  unfold likeMark
  split
  · decide
  · split
    · decide
    · exact ⟨‹_›, ‹_›⟩

/-- What stands for itself in a word is in every text that the word means. -/
theorem exists_mark_of_means (member : lexeme ∈ word) (plain : lexeme.isWildcard = false)
    (mark : lexeme.char ∈ marks) (means : Means word text) : ∃ char ∈ text, char ∈ marks := by
  induction word generalizing text with
  | nil => cases member
  | cons first word ih =>
      rcases List.mem_cons.1 member with rfl | inside
      · obtain ⟨char, rest, rfl, same, -⟩ := (means_itself plain).1 means
        obtain ⟨unlike, lowers⟩ := caseless_of_mem_marks mark
        exact ⟨char, .head _, Glob.eq_of_sameChar unlike same lowers ▸ mark⟩
      · rcases lexeme_cases first with rfl | rfl | itself
        · obtain ⟨before, after, rfl, later⟩ := means_run.1 means
          obtain ⟨char, among, marked⟩ := ih inside later
          exact ⟨char, List.mem_append_right _ among, marked⟩
        · obtain ⟨char, rest, rfl, later⟩ := means_any.1 means
          obtain ⟨char, among, marked⟩ := ih inside later
          exact ⟨char, .tail _ among, marked⟩
        · obtain ⟨char, rest, rfl, -, later⟩ := (means_itself itself).1 means
          obtain ⟨char, among, marked⟩ := ih inside later
          exact ⟨char, .tail _ among, marked⟩

theorem Lexeme.Turns.mark (turns : lexeme.Turns) :
    lexeme.isWildcard = false ∧ lexeme.char ∈ marks := by
  obtain ⟨char, escaped⟩ := lexeme
  simp only [Turns, List.mem_cons, List.not_mem_nil, or_false] at turns
  rcases turns with (rfl | rfl) | ⟨rfl, rfl | rfl⟩
  · cases escaped <;> decide
  · cases escaped <;> decide
  · decide
  · decide

/-- The pattern of a word of which a character becomes a wildcard means a text without the character. -/
theorem exists_like_not_means (member : lexeme ∈ word) (turns : lexeme.Turns) :
    ∃ text, Glob.Like (word.map fun lexeme => likeMark lexeme.char) text ∧ ¬ Means word text := by
  refine ⟨_, Glob.like_least _, fun means => ?_⟩
  obtain ⟨char, among, marked⟩ := exists_mark_of_means member turns.mark.1 turns.mark.2 means
  refine not_mem_marks_of_mem_least ⟨fun inside => ?_, fun inside => ?_⟩ among marked
  · obtain ⟨_, -, same⟩ := List.mem_map.1 inside
    exact (likeMark_ne _).1 same
  · obtain ⟨_, -, same⟩ := List.mem_map.1 inside
    exact (likeMark_ne _).2 same

/-! ## Words that keep their meaning -/

theorem likeMark_eq_percent (keeps : ¬ lexeme.Turns) :
    likeMark lexeme.char = '%' ↔ lexeme = ⟨'*', false⟩ := by
  rcases lexeme_cases lexeme with rfl | rfl | plain
  · simp [likeMark]
  · simp [likeMark]
  · have other := Lexeme.not_mem_marks plain keeps
    rw [likeMark_of_not_mem other]
    refine ⟨fun percent => absurd (percent ▸ other) (by decide), ?_⟩
    rintro rfl
    exact absurd plain (by decide)

theorem likeMark_eq_slash {char : Char} : likeMark char = '/' ↔ char = '/' := by
  unfold likeMark
  split
  · next star => simp [star]
  · split
    · next any => simp [any]
    · exact Iff.rfl

/-- Where no other character becomes one, the percent signs of the pattern of a word are its stars. -/
theorem settled_iff_stars (keeps : ∀ lexeme ∈ word, ¬ lexeme.Turns) :
    Glob.Settled (word.map fun lexeme => likeMark lexeme.char) ↔
      ∀ before after, word = before ++ ⟨'*', false⟩ :: ⟨'*', false⟩ :: after →
        after = [] ∧ (before = [] ∨ before.getLast?.map Lexeme.char = some '/') := by
  have slash (before : List Lexeme) :
      (before.map fun lexeme => likeMark lexeme.char).getLast? = some '/' ↔
        before.getLast?.map Lexeme.char = some '/' := by
    rw [List.getLast?_map]
    cases before.getLast? with
    | none => simp
    | some lexeme => simp [likeMark_eq_slash]
  constructor
  · rintro settled before after rfl
    obtain ⟨last, front⟩ := settled (before.map fun lexeme => likeMark lexeme.char)
      (after.map fun lexeme => likeMark lexeme.char) (by simp [likeMark])
    exact ⟨List.map_eq_nil_iff.1 last, front.imp List.map_eq_nil_iff.1 (slash before).1⟩
  · intro stars before after same
    obtain ⟨front, rest, rfl, rfl, ends⟩ := List.map_eq_append_iff.1 same
    obtain ⟨first, rest, rfl, isFirst, ends⟩ := List.map_eq_cons_iff.1 ends
    obtain ⟨second, back, rfl, isSecond, rfl⟩ := List.map_eq_cons_iff.1 ends
    obtain rfl := (likeMark_eq_percent (keeps first (by simp))).1 isFirst
    obtain rfl := (likeMark_eq_percent (keeps second (by simp))).1 isSecond
    obtain ⟨last, front'⟩ := stars front back rfl
    exact ⟨List.map_eq_nil_iff.2 last, front'.imp List.map_eq_nil_iff.2 (slash front).2⟩

/-- Whether the pattern of a word is read and matches just what the word means. -/
theorem exact_iff_kept (wild : ∃ lexeme ∈ word, lexeme.isWildcard = true) :
    (∃ tokens, Glob.parse (Glob.ofLike (Condition.likePattern (wordText word))) = .ok tokens ∧
      ∀ text : String, Glob.isMatch false tokens text = true ↔ Means word text.toList) ↔ Kept word := by
  have settled := @Glob.exact_iff (Condition.likePattern (wordText word))
  rw [toList_likePattern_word] at settled
  constructor
  · rintro ⟨tokens, parses, same⟩
    have keeps : ∀ lexeme ∈ word, ¬ lexeme.Turns := by
      intro lexeme member turns
      obtain ⟨text, like, unmeant⟩ := exists_like_not_means member turns
      rw [← toList_likePattern_word] at like
      have means := (same (String.ofList text)).1 (Glob.isMatch_of_like parses
        (by rwa [String.toList_ofList]))
      rw [String.toList_ofList] at means
      exact unmeant means
    refine .wild keeps ((settled_iff_stars keeps).1 (settled.1 ⟨tokens, parses, fun text => ?_⟩))
    rw [same text, means_iff_like keeps]
  · intro kept
    cases kept with
    | plain plain =>
        obtain ⟨lexeme, member, isWild⟩ := wild
        exact absurd (plain lexeme member) (by simp [isWild])
    | wild keeps stars =>
        obtain ⟨tokens, parses, same⟩ := settled.2 ((settled_iff_stars keeps).2 stars)
        exact ⟨tokens, parses, fun text => (same text).trans (means_iff_like keeps).symm⟩

/-- What the comparison with a quoted word says of texts is what the word means exactly if the word keeps
its meaning. -/
theorem judgeValue_iff_kept {field : String} (property : field ≠ "id") :
    (∀ text : String, ∃ found,
      (Condition.judgeValue (quotedTest word) field (wordText word) false (.text text)).map
        (· == some true) = .ok found ∧ (found = true ↔ Means word text.toList)) ↔ Kept word := by
  by_cases wild : ∃ lexeme ∈ word, lexeme.isWildcard = true
  · have test : quotedTest word = .pattern := if_pos (List.any_eq_true.2 wild)
    rw [test, ← exact_iff_kept wild]
    simp only [Condition.judgeValue, Bool.false_eq_true, if_false, Value.isLike, Value.toText]
    cases Glob.parse (Glob.ofLike (Condition.likePattern (wordText word))) with
    | error error => simp [fail, Except.map]
    | ok tokens => simp [Except.map]
  · have plain : ∀ lexeme ∈ word, lexeme.isWildcard = false := by simpa using wild
    have test : quotedTest word = .equals := if_neg (mt List.any_eq_true.1 wild)
    rw [test]
    refine iff_of_true (fun text => ⟨_, rfl, ?_⟩) (.plain plain)
    rw [means_iff_of_plain plain, Condition.isWanted, if_neg property]
    show (some (sameText false text (wordText word)) == some true) = true ↔ _
    rw [Option.some_beq_some, beq_true, sameText, if_neg Bool.false_ne_true, beq_iff_eq,
      ← String.toList_inj]
    have spells (text : String) : text.toLower.toList = text.toList.map Char.toLower := String.toList_map
    rw [spells, spells, wordText, String.toList_ofList, List.map_map]
    exact Iff.rfl

end Pattern

/-! ## What is selected -/

/-- The query of a filter for a word says of media that have the property what the filter says. -/
theorem State.exists_compile_filter (state : State) {mark mark' : Mark} {test : FilterTest}
    {field word : String} (wordy : test.isNumeric = false) (property : field ≠ "id")
    (defaultBase : String) :
    ∃ query, state.compile defaultBase (.filter mark (.filter test) field word (.everything mark')) {} =
        .ok query ∧
      ∀ medium, medium.properties.contains field = true → query.selects medium =
        ((Condition.compares test field word false).judge medium).map (· == some true) := by
  obtain ⟨query, compiled, evaluates, joins⟩ := state.exists_compile_of_view
    (Tree.view_filter_word wordy field word (.everything mark' : Node)) rfl wordy property defaultBase {}
  refine ⟨query, compiled, fun medium owns => ?_⟩
  rw [CompiledQuery.selects_of_joins (joins medium owns), evaluates]

namespace Pattern

/-- A quoted word that is compared with a property is a well-formed pattern.  Its collection selects just
the values that the word means exactly if the word keeps its meaning. -/
theorem selects_quoted_iff {name word : List Lexeme} (spells : Spells name) (quotable : Quotable word)
    (property : propertyName name ≠ "id") (fields : List String) :
    ∃ shape, parse fields (writeQuoted name word) = .ok shape ∧
      ∀ (state : State) (defaultBase : String) (tree : Node), tree.shape = shape →
        ∃ query, state.compile defaultBase tree {} = .ok query ∧
          ((∀ medium text, medium.properties.get? (propertyName name) = some (.text text) →
            ∃ found, query.selects medium = .ok found ∧ (found = true ↔ Means word text.toList)) ↔
            Kept word) := by
  refine ⟨_, parse_writeQuoted spells quotable fields, fun state defaultBase tree same => ?_⟩
  obtain ⟨mark, mark', rfl⟩ := Tree.exists_of_shape_filter same
  have wordy : (quotedTest word).isNumeric = false := by
    unfold quotedTest
    split <;> rfl
  obtain ⟨query, compiled, selects⟩ :=
    @State.exists_compile_filter state mark mark' _ _ (wordText word) wordy property defaultBase
  refine ⟨query, compiled, ?_⟩
  rw [← judgeValue_iff_kept property]
  have judges : ∀ medium text, medium.properties.get? (propertyName name) = some (.text text) →
      query.selects medium = (Condition.judgeValue (quotedTest word) (propertyName name)
        (wordText word) false (.text text)).map (· == some true) := by
    intro medium text has
    rw [selects medium (by rw [SortedMap.contains, has]; rfl), Condition.judge, Medium.field?,
      if_neg property, has]
  constructor
  · intro selected text
    have has : (SortedMap.ofList [(propertyName name, Value.text text)]).get? (propertyName name) =
        some (.text text) := by
      simp [SortedMap.ofList]
    obtain ⟨found, selects, means⟩ := selected ⟨0, _⟩ text has
    exact ⟨found, (judges ⟨0, _⟩ text has).symm.trans selects, means⟩
  · intro judged medium text has
    obtain ⟨found, selects, means⟩ := judged text
    exact ⟨found, (judges medium text has).trans selects, means⟩

/-- A title in which a star stands for itself: its pattern has it stand for others. -/
theorem selects_quoted_iff_star :
    let name : List Lexeme := [⟨'t', false⟩, ⟨'i', false⟩, ⟨'t', false⟩, ⟨'l', false⟩, ⟨'e', false⟩]
    let word : List Lexeme := [⟨'*', true⟩, ⟨'a', false⟩, ⟨'*', false⟩]
    writeQuoted name word = "title:\"\\*a*\"" ∧ Spells name ∧ Quotable word ∧ propertyName name ≠ "id" ∧
      ∃ shape, parse defaultFields (writeQuoted name word) = .ok shape ∧
        ∀ (state : State) (defaultBase : String) (tree : Node), tree.shape = shape →
          ∃ query, state.compile defaultBase tree {} = .ok query ∧
            ((∀ medium text, medium.properties.get? (propertyName name) = some (.text text) →
              ∃ found, query.selects medium = .ok found ∧ (found = true ↔ Means word text.toList)) ↔
              Kept word) := by
  intro name word
  have spells : Spells name := by
    refine ⟨by decide, by decide, fun first isFirst _ => ?_, by decide⟩
    cases isFirst
    decide
  have quotable : Quotable word := by
    unfold Quotable
    decide
  have property : propertyName name ≠ "id" := by decide
  exact ⟨by decide, spells, quotable, property, selects_quoted_iff spells quotable property _⟩

end Pattern

end Medley
