import Medley.Proofs.Media.Wildcards

/-!
# What patterns with percent signs are compared as

A pattern with percent signs is matched as a wildcard pattern, in which two stars in a row are a wildcard of
their own.  It is read exactly if two percent signs in a row are a whole component
(`Glob.exists_parse_iff`), and these then stand for any run of components, together with the slash behind them
(`Glob.isMatch_iff_covers`).
-/

namespace Medley

namespace Glob

/-- Patterns in which two percent signs in a row are a whole component: nothing or a slash stands on either
side of them.  The flag says whether something other than a slash is in front of the pattern. -/
inductive Whole : Bool → List Char → Prop where
  | nil {behind : Bool} : Whole behind []
  | single {behind : Bool} {char : Char} {rest : List Char} (other : char ≠ '%')
      (later : Whole (decide (char ≠ '/')) rest) : Whole behind (char :: rest)
  | run {behind : Bool} {rest : List Char} (alone : rest.head? ≠ some '%') (later : Whole true rest) :
      Whole behind ('%' :: rest)
  | last : Whole false ['%', '%']
  | components {rest : List Char} (later : Whole false rest) : Whole false ('%' :: '%' :: '/' :: rest)

/-- The texts that a pattern is compared as: two percent signs and a slash stand for nothing, for any run of
characters up to a slash, or for all that is left; otherwise a percent sign stands for any run of characters
and an underscore for one, and upper and lower case are the same. -/
def Covers : List Char → List Char → Prop
  | [], text => text = []
  | '%' :: '%' :: '/' :: pattern, text => ∃ before after, text = before ++ after ∧
      (before = [] ∨ before.getLast? = some '/' ∨ after = []) ∧ Covers pattern after
  | wanted :: pattern, text =>
      if wanted = '%' then ∃ before after, text = before ++ after ∧ Covers pattern after
      else ∃ char rest, text = char :: rest ∧ (wanted = '_' ∨ sameChar false char wanted = true) ∧
        Covers pattern rest

section

variable {position : Nat} {previous : Option Char} {pattern text : List Char} {char : Char}
  {tokens : List GlobToken}

theorem covers_components : Covers ('%' :: '%' :: '/' :: pattern) text ↔
    ∃ before after, text = before ++ after ∧
      (before = [] ∨ before.getLast? = some '/' ∨ after = []) ∧ Covers pattern after := Iff.rfl

theorem covers_run (apart : ∀ more, pattern ≠ '%' :: '/' :: more) : Covers ('%' :: pattern) text ↔
    ∃ before after, text = before ++ after ∧ Covers pattern after := by
  rw [Covers, if_pos rfl]
  exact fun more _ same => apart more same

theorem covers_single (other : char ≠ '%') : Covers (char :: pattern) text ↔
    ∃ first rest, text = first :: rest ∧ (char = '_' ∨ sameChar false first char = true) ∧
      Covers pattern rest := by
  rw [Covers, if_neg other]
  exact fun _ same _ => other same

/-- Two percent signs at the end stand for anything. -/
theorem covers_last : Covers ['%', '%'] text := by
  have ends : Covers ['%'] text :=
    (covers_run (by simp)).2 ⟨text, [], (List.append_nil text).symm, rfl⟩
  exact (covers_run (by simp)).2 ⟨[], text, rfl, ends⟩

/-- A percent sign skips what is in front of a text. -/
theorem covers_percent {before after : List Char} (covers : Covers pattern after) :
    Covers ('%' :: pattern) (before ++ after) := by
  by_cases slash : ∃ more, pattern = '%' :: '/' :: more
  · obtain ⟨more, rfl⟩ := slash
    obtain ⟨between, _, rfl, behind⟩ := (covers_run (by simp)).1 covers
    obtain ⟨first, rest, rfl, same, later⟩ := (covers_single (by decide)).1 behind
    obtain rfl := eq_of_sameChar (by decide) (same.resolve_left (by decide)) (by decide)
    exact covers_components.2 ⟨before ++ between ++ ['/'], rest, by simp, .inr (.inl (by simp)), later⟩
  · exact (covers_run fun more starts => slash ⟨more, starts⟩).2 ⟨before, after, rfl, covers⟩

theorem precedes_likeToken {holds : List Char → Prop} :
    (likeToken char).Precedes false holds text ↔ ∃ first rest, text = first :: rest ∧
      (char = '_' ∨ sameChar false first char = true) ∧ holds rest := by
  simp only [← accepts_likeToken]
  unfold likeToken
  split
  · exact Iff.rfl
  · split <;> exact Iff.rfl

/-- What a wildcard for components in front of a pattern adds. -/
theorem precedes_anyComponents {caseSensitive : Bool} {holds : List Char → Prop} :
    GlobToken.anyComponents.Precedes caseSensitive holds text ↔
      ∃ before after, text = before ++ after ∧
        (before = [] ∨ before.getLast? = some '/' ∨ after = []) ∧ holds after := by
  constructor
  · rintro (here | ⟨before, after, rfl, later⟩ | ends)
    · exact ⟨[], text, rfl, .inl rfl, here⟩
    · exact ⟨before ++ ['/'], after, by simp, .inr (.inl (by simp)), later⟩
    · exact ⟨text, [], (List.append_nil text).symm, .inr (.inr rfl), ends⟩
  · rintro ⟨before, after, rfl, rfl | slash | rfl, later⟩
    · exact .inl later
    · obtain ⟨front, rfl⟩ := List.getLast?_eq_some_iff.1 slash
      exact .inr (.inl ⟨front, after, by simp, later⟩)
    · exact .inr (.inr later)

/-- A pattern of whole components is read, and matches what it is compared as. -/
theorem Whole.exists_parse (whole : Whole (previous.any (· != '/')) pattern) :
    ∃ tokens, parseFrom position previous none (pattern.flatMap likeChar) = .ok tokens ∧
      ∀ text, Matches false tokens text ↔ Covers pattern text := by
  generalize behind : previous.any (· != '/') = flag at whole
  induction whole generalizing position previous with
  | nil => exact ⟨[], by rw [List.flatMap_nil, parseFrom], fun _ => Iff.rfl⟩
  | @single _ char rest other later ih =>
      obtain ⟨position', previous', behind, reads⟩ :=
        parseFrom_likeChar other position previous (rest.flatMap likeChar)
      obtain ⟨tokens, parses, same⟩ := @ih position' previous' behind
      refine ⟨likeToken char :: tokens, by rw [List.flatMap_cons, reads, parses]; rfl, fun text => ?_⟩
      rw [covers_single other]
      simp only [← same]
      exact precedes_likeToken
  | @run _ rest alone later ih =>
      obtain ⟨tokens, parses, same⟩ := @ih (position + 1) (some '*') rfl
      refine ⟨.anyRun :: tokens, ?_, fun text => ?_⟩
      · show parseFrom position previous none ('*' :: rest.flatMap likeChar) = _
        rw [parseFrom_run (mt head?_of_likeChars alone), parses]
        rfl
      · rw [covers_run fun more starts => alone (by rw [starts]; rfl)]
        simp only [← same]
        exact Iff.rfl
  | last =>
      refine ⟨[.anyComponents], ?_, fun text => iff_of_true (.inr (.inr rfl)) covers_last⟩
      show parseFrom position previous none ['*', '*'] = _
      rw [parseFrom, if_neg (by rw [behind]; exact Bool.false_ne_true)]
  | @components rest later ih =>
      obtain ⟨tokens, parses, same⟩ := @ih (position + 3) (some '/') rfl
      refine ⟨.anyComponents :: tokens, ?_, fun text => ?_⟩
      · show parseFrom position previous none ('*' :: '*' :: '/' :: rest.flatMap likeChar) = _
        rw [parseFrom, if_neg (by rw [behind]; exact Bool.false_ne_true), parses]
        rfl
      · rw [covers_components]
        simp only [← same]
        exact precedes_anyComponents

/-- A pattern that is read has whole components. -/
theorem whole_of_parse
    (parses : parseFrom position previous none (pattern.flatMap likeChar) = .ok tokens) :
    Whole (previous.any (· != '/')) pattern := by
  induction length : pattern.length using Nat.strongRecOn generalizing pattern position previous
    tokens with
  | ind size ih =>
      subst length
      cases pattern with
      | nil => exact .nil
      | cons char rest =>
          rw [List.flatMap_cons] at parses
          by_cases percent : char = '%'
          · subst percent
            have parses : parseFrom position previous none ('*' :: rest.flatMap likeChar) = .ok tokens :=
              parses
            by_cases alone : rest.head? = some '%'
            · obtain ⟨rest, rfl⟩ := List.head?_eq_some_iff.1 alone
              obtain ⟨start, ⟨ends, -⟩ | ⟨more, others, slash, -, below⟩⟩ := parseFrom_components parses
              · obtain rfl := eq_nil_of_likeChars ends
                exact start ▸ .last
              · obtain ⟨more, rfl, rfl⟩ := exists_of_likeChars_slash slash
                exact start ▸ .components (ih _ (by simp; omega) below rfl)
            · rw [parseFrom_run (mt head?_of_likeChars alone)] at parses
              obtain ⟨others, below, -⟩ := Except.map_eq_ok.1 parses
              exact .run alone (ih _ (by simp) below rfl)
          · obtain ⟨position', previous', behind, reads⟩ :=
              parseFrom_likeChar percent position previous (rest.flatMap likeChar)
            obtain ⟨others, below, -⟩ := Except.map_eq_ok.1 (reads.symm.trans parses)
            exact .single percent (behind ▸ ih _ (by simp) below rfl)

/-- A pattern is read exactly if its components are whole. -/
theorem exists_parse_iff {pattern : String} :
    (∃ tokens, parse (ofLike pattern) = .ok tokens) ↔ Whole false pattern.toList := by
  rw [parse, toList_ofLike]
  constructor
  · rintro ⟨tokens, parses⟩
    exact whole_of_parse parses
  · intro whole
    obtain ⟨tokens, parses, -⟩ := @Whole.exists_parse 0 none _ whole
    exact ⟨tokens, parses⟩

theorem isMatch_iff_covers {pattern text : String} {tokens : List GlobToken}
    (parses : parse (ofLike pattern) = .ok tokens) :
    isMatch false tokens text = true ↔ Covers pattern.toList text.toList := by
  obtain ⟨tokens', parses', same⟩ :=
    @Whole.exists_parse 0 none _ (exists_parse_iff.1 ⟨tokens, parses⟩)
  rw [parse, toList_ofLike, parses'] at parses
  obtain rfl := Except.ok.inj parses
  exact isMatch_iff.trans (same _)

/-- Whatever a pattern means it is compared as. -/
theorem covers_of_like (means : Like pattern text) : Covers pattern text := by
  induction pattern generalizing text with
  | nil => exact means
  | cons char pattern ih =>
      by_cases percent : char = '%'
      · subst percent
        obtain ⟨before, after, rfl, later⟩ := like_percent.1 means
        exact covers_percent (ih later)
      · obtain ⟨first, rest, rfl, same, later⟩ := (like_single percent).1 means
        exact (covers_single percent).2 ⟨first, rest, rfl, same, ih later⟩

end

/-- A pattern that is read matches whatever it means. -/
theorem isMatch_of_like {pattern text : String} {tokens : List GlobToken}
    (parses : parse (ofLike pattern) = .ok tokens) (means : Like pattern.toList text.toList) :
    isMatch false tokens text = true :=
  (isMatch_iff_covers parses).2 (covers_of_like means)

/-- The pattern for a word inside a text matches every text that the word is in. -/
theorem isMatch_of_infix {word text : String} {tokens : List GlobToken}
    (parses : parse (ofLike ("%" ++ word ++ "%")) = .ok tokens)
    (inside : word.toList.map Char.toLower <:+: text.toList.map Char.toLower) :
    isMatch false tokens text = true := by
  refine isMatch_of_like parses ?_
  rw [String.toList_append, String.toList_append]
  obtain ⟨part, inside, same⟩ := infix_map_iff.1 inside
  exact like_inside.2 ⟨part, inside, like_of_map_eq same⟩

end Glob

/-- A value is like a pattern that has whole components if it is one of the texts that this is compared as. -/
theorem Value.isLike_ofLike_eq_true {value : Value} {pattern : String} :
    value.isLike false (Glob.ofLike pattern) = .ok (some true) ↔
      Glob.Whole false pattern.toList ∧ Glob.Covers pattern.toList value.toText.toList := by
  rw [isLike_eq_ok]
  constructor
  · rintro ⟨tokens, parses, found⟩
    exact ⟨Glob.exists_parse_iff.1 ⟨tokens, parses⟩,
      (Glob.isMatch_iff_covers parses).1 (Option.some.inj found).symm⟩
  · rintro ⟨whole, covers⟩
    obtain ⟨tokens, parses⟩ := Glob.exists_parse_iff.2 whole
    exact ⟨tokens, parses, congrArg some ((Glob.isMatch_iff_covers parses).2 covers).symm⟩

end Medley
