import Medley.Proofs.Media.Components

/-!
# Which patterns match no more than they mean

A pattern with percent signs is matched as a wildcard pattern, in which two stars are more than a run of
characters: they have to be whole components, and stand for nothing as well as for components with the
slash behind them.  So the pattern matches just what it means exactly if two percent signs in a row come
last, with nothing or a slash in front of them (`Glob.exact_iff`), and a comparison with any other is
answered by an error or by something else (`Value.compare_like`).
-/

namespace Medley

namespace Glob

/-- Whether two percent signs in a row come only at the end of a pattern, and only behind a slash or at the
start. -/
def Settled (pattern : List Char) : Prop :=
  ∀ before after, pattern = before ++ '%' :: '%' :: after →
    after = [] ∧ (before = [] ∨ before.getLast? = some '/')

/-- Whether the rest of a pattern is settled; the flag says whether something other than a slash is in
front of it. -/
def Settles : Bool → List Char → Prop
  | _, [] => True
  | behind, char :: rest =>
      (char = '%' → rest.head? = some '%' → behind = false ∧ rest = ['%']) ∧
        Settles (decide (char ≠ '/')) rest

theorem settles_cons {behind : Bool} {char : Char} {rest : List Char} :
    Settles behind (char :: rest) ↔
      (char = '%' → rest.head? = some '%' → behind = false ∧ rest = ['%']) ∧
        Settles (decide (char ≠ '/')) rest := by
  rw [Settles]

theorem settles_iff {behind : Bool} {pattern : List Char} :
    Settles behind pattern ↔ ∀ before after, pattern = before ++ '%' :: '%' :: after →
      after = [] ∧ (before = [] ∧ behind = false ∨ before.getLast? = some '/') := by
  induction pattern generalizing behind with
  | nil => exact ⟨fun _ before after same => by simp at same, fun _ => trivial⟩
  | cons char rest ih =>
      rw [settles_cons, ih]
      constructor
      · rintro ⟨here, later⟩ before after same
        cases before with
        | nil =>
            obtain ⟨rfl, rfl⟩ := List.cons.inj same
            obtain ⟨start, last⟩ := here rfl rfl
            exact ⟨(List.cons.inj last).2, .inl ⟨rfl, start⟩⟩
        | cons first before =>
            obtain ⟨rfl, rfl⟩ := List.cons.inj same
            obtain ⟨last, slash | slash⟩ := later before after rfl
            · obtain ⟨rfl, slash⟩ := slash
              exact ⟨last, .inr (by simpa using slash)⟩
            · refine ⟨last, .inr ?_⟩
              obtain ⟨front, rfl⟩ := List.getLast?_eq_some_iff.1 slash
              rw [← List.cons_append, List.getLast?_append]
              rfl
      · intro each
        refine ⟨fun percent next => ?_, fun before after same => ?_⟩
        · obtain ⟨after, rfl⟩ := List.head?_eq_some_iff.1 next
          obtain ⟨rfl, start | slash⟩ := each [] after (percent ▸ rfl)
          · exact ⟨start.2, rfl⟩
          · cases slash
        · obtain ⟨last, start | slash⟩ := each (char :: before) after (same ▸ rfl)
          · cases start.1
          · refine ⟨last, ?_⟩
            cases before with
            | nil => exact .inl ⟨rfl, by simpa using slash⟩
            | cons first before => exact .inr (by simpa using slash)

theorem settled_iff {pattern : List Char} : Settled pattern ↔ Settles false pattern := by
  rw [settles_iff, Settled]
  simp

/-! ## Settled patterns -/

section

variable {behind : Bool} {pattern text : List Char} {char : Char}

/-- In a settled pattern two percent signs in a row are a whole component. -/
theorem Settles.whole (settles : Settles behind pattern) : Whole behind pattern := by
  induction pattern generalizing behind with
  | nil => exact .nil
  | cons char rest ih =>
      obtain ⟨here, later⟩ := settles_cons.1 settles
      by_cases percent : char = '%'
      · subst percent
        by_cases next : rest.head? = some '%'
        · obtain ⟨rfl, rfl⟩ := here rfl next
          exact .last
        · exact .run next (ih later)
      · exact .single percent (ih later)

/-- A settled pattern is compared as no more than it means. -/
theorem Settles.like_of_covers (settles : Settles behind pattern) (covers : Covers pattern text) :
    Like pattern text := by
  induction pattern, text using Covers.induct generalizing behind with
  | case1 text => exact covers
  | case2 pattern text ih => cases ((settles_cons.1 settles).1 rfl rfl).2
  | case3 pattern text apart ih =>
      obtain ⟨before, after, rfl, later⟩ := (covers_run fun more => apart more rfl).1 covers
      exact like_percent.2 ⟨before, after, rfl, ih after (settles_cons.1 settles).2 later⟩
  | case4 char pattern text _ other ih =>
      obtain ⟨first, rest, rfl, same, later⟩ := (covers_single other).1 covers
      exact (like_single other).2 ⟨first, rest, rfl, same, ih rest (settles_cons.1 settles).2 later⟩

/-! ## Patterns that are not settled -/

/-- A shortest text that a pattern means. -/
def least (pattern : List Char) : List Char :=
  (pattern.filter (· ≠ '%')).map fun char => if char = '_' then 'z' else char

@[simp] theorem least_percent (pattern : List Char) : least ('%' :: pattern) = least pattern := by
  rw [least, List.filter_cons_of_neg (by decide), least]

theorem least_single (other : char ≠ '%') (pattern : List Char) :
    least (char :: pattern) = (if char = '_' then 'z' else char) :: least pattern := by
  rw [least, List.filter_cons_of_pos (by simpa using other), List.map_cons, least]

/-- The character that a text has for one of the pattern. -/
theorem same_least (char : Char) :
    char = '_' ∨ sameChar false (if char = '_' then 'z' else char) char = true := by
  by_cases underscore : char = '_'
  · exact .inl underscore
  · rw [if_neg underscore]
    exact .inr (beq_self_eq_true _)

theorem like_least (pattern : List Char) : Like pattern (least pattern) := by
  induction pattern with
  | nil => rfl
  | cons char rest ih =>
      by_cases percent : char = '%'
      · subst percent
        exact like_percent.2 ⟨[], least rest, least_percent rest, ih⟩
      · exact (like_single percent).2 ⟨_, _, least_single percent rest, same_least char, ih⟩

/-- A character without cases is in what stands for it. -/
theorem countP_cons_le {counted : Char → Bool} {char first : Char} {pattern text : List Char}
    (caseless : ∀ char, counted char = true → char ≠ '_' ∧ char.isLower = false ∧ char.toLower = char)
    (same : char = '_' ∨ sameChar false first char = true)
    (fewer : pattern.countP counted ≤ text.countP counted) :
    (char :: pattern).countP counted ≤ (first :: text).countP counted := by
  by_cases counts : counted char = true
  · obtain ⟨single, unlike, fixed⟩ := caseless char counts
    obtain rfl := eq_of_sameChar unlike (same.resolve_left single) fixed
    simpa [counts] using fewer
  · rw [List.countP_cons_of_neg counts]
    exact Nat.le_trans fewer ((List.sublist_cons_self first text).countP_le)

/-- Every slash of a pattern is in what it means. -/
theorem count_slash_of_like (like : Like pattern text) : pattern.count '/' ≤ text.count '/' := by
  induction pattern generalizing text with
  | nil => exact Nat.zero_le _
  | cons char rest ih =>
      by_cases percent : char = '%'
      · subst percent
        obtain ⟨before, after, rfl, means⟩ := like_percent.1 like
        rw [List.count_cons_of_ne (by decide), List.count_append]
        exact Nat.le_trans (ih means) (Nat.le_add_left ..)
      · obtain ⟨first, after, rfl, same, means⟩ := (like_single percent).1 like
        refine countP_cons_le (fun char slash => ?_) same (ih means)
        obtain rfl := beq_iff_eq.1 slash
        decide

theorem beq_slash_least (char : Char) :
    ((if char = '_' then 'z' else char) == '/') = (char == '/') := by
  by_cases underscore : char = '_'
  · subst underscore
    rfl
  · rw [if_neg underscore]

theorem count_slash_least (pattern : List Char) : (least pattern).count '/' = pattern.count '/' := by
  induction pattern with
  | nil => rfl
  | cons char rest ih =>
      by_cases percent : char = '%'
      · subst percent
        rw [least_percent, ih, List.count_cons_of_ne (by decide)]
      · rw [least_single percent, List.count_cons, List.count_cons, ih, beq_slash_least]

/-- A pattern that is not settled although its components are whole is compared as a text with fewer slashes
than it has. -/
theorem Whole.exists_covers (whole : Whole behind pattern) (unsettled : ¬ Settles behind pattern) :
    ∃ text, Covers pattern text ∧ text.count '/' < pattern.count '/' := by
  induction whole with
  | nil => exact absurd trivial unsettled
  | @single _ char rest other later ih =>
      obtain ⟨text, covers, fewer⟩ := ih fun settles =>
        unsettled (settles_cons.2 ⟨fun percent => absurd percent other, settles⟩)
      refine ⟨(if char = '_' then 'z' else char) :: text,
        (covers_single other).2 ⟨_, text, rfl, same_least char, covers⟩, ?_⟩
      rw [List.count_cons, List.count_cons, beq_slash_least]
      exact Nat.add_lt_add_right fewer _
  | @run _ rest alone later ih =>
      obtain ⟨text, covers, fewer⟩ := ih fun settles =>
        unsettled (settles_cons.2 ⟨fun _ next => absurd next alone, settles⟩)
      rw [List.count_cons_of_ne (by decide)]
      exact ⟨text, (covers_run fun more starts => alone (by rw [starts]; rfl)).2 ⟨[], text, rfl, covers⟩,
        fewer⟩
  | last => exact absurd (settles_cons.2 ⟨fun _ _ => ⟨rfl, rfl⟩, nofun, trivial⟩) unsettled
  | @components rest later ih =>
      -- The components stand for nothing, and the slash behind them is gone.
      refine ⟨least rest, covers_components.2 ⟨[], _, rfl, .inl rfl, covers_of_like (like_least rest)⟩, ?_⟩
      rw [count_slash_least]
      simp

end

/-- A pattern is read and matches just what it means exactly if it is settled. -/
theorem exact_iff {pattern : String} :
    (∃ tokens, parse (ofLike pattern) = .ok tokens ∧
      ∀ text, isMatch false tokens text = true ↔ Like pattern.toList text.toList) ↔
      Settled pattern.toList := by
  rw [settled_iff]
  constructor
  · rintro ⟨tokens, parses, meant⟩
    by_contra unsettled
    obtain ⟨text, covers, fewer⟩ := (exists_parse_iff.1 ⟨tokens, parses⟩).exists_covers unsettled
    have like := (meant (String.ofList text)).1 ((isMatch_iff_covers parses).2
      (by rwa [String.toList_ofList]))
    rw [String.toList_ofList] at like
    exact absurd (count_slash_of_like like) (Nat.not_le.2 fewer)
  · intro settles
    obtain ⟨tokens, parses⟩ := exists_parse_iff.2 settles.whole
    exact ⟨tokens, parses, fun text =>
      (isMatch_iff_covers parses).trans ⟨settles.like_of_covers, covers_of_like⟩⟩

end Glob

namespace Value

theorem compare_like_text (value : Value) (pattern : String) (caseSensitive : Bool) :
    value.compare .like (.text pattern) caseSensitive = value.isLike false (Glob.ofLike pattern) := rfl

/-- A comparison with a pattern of percent signs has no answer if two of them in a row are not a whole
component, and else is answered as they stand for components.  So every value is answered by what the
pattern means exactly if two percent signs in a row come only at its end, and behind a slash or at its
start. -/
theorem compare_like (pattern : String) (caseSensitive : Bool) :
    (∀ value : Value,
      ¬ Glob.Whole false pattern.toList ∧
        (∃ error, value.compare .like (.text pattern) caseSensitive = .error error) ∨
      Glob.Whole false pattern.toList ∧
        ∃ found, value.compare .like (.text pattern) caseSensitive = .ok (some found) ∧
          (found = true ↔ Glob.Covers pattern.toList value.toText.toList)) ∧
    ((∀ value : Value, ∃ found,
      value.compare .like (.text pattern) caseSensitive = .ok (some found) ∧
        (found = true ↔ Glob.Like pattern.toList value.toText.toList)) ↔
      Glob.Settled pattern.toList) := by
  simp only [compare_like_text, ← Glob.exists_parse_iff, ← Glob.exact_iff]
  refine ⟨fun value => ?_, fun answers => ?_, ?_⟩
  · by_cases reads : ∃ tokens, Glob.parse (Glob.ofLike pattern) = .ok tokens
    · obtain ⟨tokens, parses⟩ := reads
      exact .inr ⟨⟨tokens, parses⟩, _, isLike_eq_ok.2 ⟨tokens, parses, rfl⟩, Glob.isMatch_iff_covers parses⟩
    · exact .inl ⟨reads, isLike_eq_error.2 reads⟩
  · obtain ⟨_, compared, -⟩ := answers (.text "")
    obtain ⟨tokens, parses, -⟩ := isLike_eq_ok.1 compared
    refine ⟨tokens, parses, fun text => ?_⟩
    obtain ⟨found, compared, same⟩ := answers (.text text)
    obtain ⟨tokens', parses', isFound⟩ := isLike_eq_ok.1 compared
    obtain rfl := Except.ok.inj (parses.symm.trans parses')
    exact Option.some.inj isFound ▸ same
  · rintro ⟨tokens, parses, same⟩ value
    exact ⟨_, isLike_eq_ok.2 ⟨tokens, parses, rfl⟩, same value.toText⟩

end Value

end Medley
