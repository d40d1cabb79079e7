import Medley.Media.Evaluation
import Medley.Proofs.Tree.Validity

/-!
# What wildcard patterns match

The table of a pattern says of every suffix of a text whether the pattern matches it, so the first entry
says it of the text (`Glob.isMatch_iff`).  A pattern in which a percent sign stands for any run of
characters becomes a wildcard pattern, one token for each character (`Glob.parseFrom_likeChar`); a word
between percent signs means the texts that have it inside (`Glob.like_inside`).
-/

namespace Medley

/-- Whether a table says of every suffix of a text whether something holds of it. -/
inductive Tells (holds : List Char → Prop) : List Char → List Bool → Prop where
  | nil {here : Bool} (same : here = true ↔ holds []) : Tells holds [] [here]
  | cons {char : Char} {text : List Char} {here : Bool} {table : List Bool}
      (same : here = true ↔ holds (char :: text)) (later : Tells holds text table) :
      Tells holds (char :: text) (here :: table)

namespace Tells

variable {holds holds' : List Char → Prop} {text : List Char} {table table' : List Bool}

theorem head (tells : Tells holds text table) : table.head?.getD false = true ↔ holds text := by
  cases tells with
  | nil same => exact same
  | cons same _ => exact same

theorem mono (tells : Tells holds text table) (same : ∀ text, holds text ↔ holds' text) :
    Tells holds' text table := by
  induction tells with
  | nil here => exact .nil (here.trans (same _))
  | cons here _ ih => exact .cons (here.trans (same _)) ih

/-- The table of the empty pattern. -/
theorem empty (text : List Char) : Tells (· = []) text (text.map (fun _ => false) ++ [true]) := by
  induction text with
  | nil => exact .nil (by simp)
  | cons char text ih => exact .cons (by simp) ih

theorem or (tells : Tells holds text table) (tells' : Tells holds' text table') :
    Tells (fun text => holds text ∨ holds' text) text (List.zipWith (· || ·) table table') := by
  induction tells generalizing table' with
  | nil same =>
      cases tells' with
      | nil same' => exact .nil (by rw [Bool.or_eq_true, same, same'])
  | cons same _ ih =>
      cases tells' with
      | cons same' later' => exact .cons (by rw [Bool.or_eq_true, same, same']) (ih later')

theorem anySuffix (tells : Tells holds text table) :
    Tells (fun text => ∃ before after, text = before ++ after ∧ holds after) text
      (GlobToken.anySuffix table) := by
  induction tells with
  | nil same =>
      refine .nil ?_
      simp [GlobToken.anySuffix, same, and_assoc]
  | @cons char text here table same later ih =>
      refine .cons ?_ ih
      rw [Bool.or_eq_true, same, ih.head]
      constructor
      · rintro (holds | ⟨before, after, rfl, holds⟩)
        · exact ⟨[], char :: text, rfl, holds⟩
        · exact ⟨char :: before, after, rfl, holds⟩
      · rintro ⟨_ | ⟨first, before⟩, after, split, holds⟩
        · exact .inl (split ▸ holds)
        · exact .inr ⟨before, after, (List.cons.inj split).2, holds⟩

theorem anyComponent (tells : Tells holds text table) :
    Tells (fun text => (∃ before after, text = before ++ '/' :: after ∧ holds after) ∨ holds []) text
      (GlobToken.anyComponent text table) := by
  induction tells with
  | nil same =>
      refine .nil ?_
      simp [same]
  | @cons char text here table same later ih =>
      refine .cons ?_ ih
      rw [Bool.or_eq_true, Bool.and_eq_true, beq_iff_eq, later.head, ih.head]
      constructor
      · rintro (⟨rfl, holds⟩ | ⟨before, after, rfl, holds⟩ | ends)
        · exact .inl ⟨[], text, rfl, holds⟩
        · exact .inl ⟨char :: before, after, rfl, holds⟩
        · exact .inr ends
      · rintro (⟨_ | ⟨first, before⟩, after, split, holds⟩ | ends)
        · obtain ⟨rfl, rfl⟩ := List.cons.inj split
          exact .inl ⟨rfl, holds⟩
        · exact .inr (.inl ⟨before, after, (List.cons.inj split).2, holds⟩)
        · exact .inr (.inr ends)

theorem single (tells : Tells holds text table) (accepts : Char → Bool) :
    Tells (fun text => ∃ char rest, text = char :: rest ∧ accepts char = true ∧ holds rest) text
      (List.zipWith (fun char next => accepts char && next) text (table.drop 1) ++ [false]) := by
  induction tells with
  | nil same => exact .nil (by simp)
  | @cons char text here table same later ih =>
      cases later with
      | nil next =>
          refine .cons ?_ ih
          simp [next, and_assoc]
      | cons next further =>
          refine .cons ?_ ih
          simp [next, and_assoc]

end Tells

/-- What a token in front of a pattern adds to a text that the pattern matches. -/
def GlobToken.Precedes (caseSensitive : Bool) (token : GlobToken) (holds : List Char → Prop)
    (text : List Char) : Prop :=
  match token with
  | .anyRun => ∃ before after, text = before ++ after ∧ holds after
  | .anyComponents =>
      holds text ∨ (∃ before after, text = before ++ '/' :: after ∧ holds after) ∨ holds []
  | single => ∃ char rest, text = char :: rest ∧ single.accepts caseSensitive char = true ∧ holds rest

theorem GlobToken.Precedes.of_accepts {caseSensitive : Bool} {token : GlobToken}
    {holds : List Char → Prop} {char : Char} {rest : List Char}
    (accepts : token.accepts caseSensitive char = true) (follows : holds rest) :
    token.Precedes caseSensitive holds (char :: rest) := by
  cases token with
  | anyRun => cases accepts
  | anyComponents => cases accepts
  | _ => exact ⟨char, rest, rfl, accepts, follows⟩

theorem Tells.precede {holds : List Char → Prop} {text : List Char} {table : List Bool}
    (tells : Tells holds text table) (caseSensitive : Bool) (token : GlobToken) :
    Tells (token.Precedes caseSensitive holds) text (token.precede caseSensitive text table) := by
  cases token with
  | anyRun => exact tells.anySuffix
  | anyComponents => exact tells.or tells.anyComponent
  | _ => exact tells.single _

namespace Glob

/-- The texts that a pattern matches. -/
def Matches (caseSensitive : Bool) : List GlobToken → List Char → Prop
  | [] => fun text => text = []
  | token :: tokens => token.Precedes caseSensitive (Matches caseSensitive tokens)

theorem tells_table (caseSensitive : Bool) (tokens : List GlobToken) (text : List Char) :
    Tells (Matches caseSensitive tokens) text (table caseSensitive tokens text) := by
  induction tokens with
  | nil => exact .empty text
  | cons token tokens ih => exact ih.precede caseSensitive token

theorem isMatch_iff {caseSensitive : Bool} {tokens : List GlobToken} {text : String} :
    isMatch caseSensitive tokens text = true ↔ Matches caseSensitive tokens text.toList :=
  (tells_table caseSensitive tokens text.toList).head

/-! ## Patterns with percent signs -/

/-- The texts that a pattern means in which a percent sign stands for any run of characters and an
underscore for one; upper and lower case are the same. -/
def Like : List Char → List Char → Prop
  | [], text => text = []
  | wanted :: pattern, text =>
      if wanted = '%' then ∃ before after, text = before ++ after ∧ Like pattern after
      else ∃ char rest, text = char :: rest ∧ (wanted = '_' ∨ sameChar false char wanted = true) ∧
        Like pattern rest

/-- What a character of such a pattern becomes. -/
def likeChar (char : Char) : List Char :=
  if char = '%' then ['*'] else if char = '_' then ['?'] else escapeChar char

theorem toList_ofLike (pattern : String) :
    (ofLike pattern).toList = pattern.toList.flatMap likeChar := by
  rw [ofLike, String.toList_ofList]
  rfl

theorem likeChar_cases (char : Char) :
    char = '%' ∨ char = '_' ∨ char ∈ ['?', '*', '[', ']'] ∧ likeChar char = ['[', char, ']'] ∨
      char ∉ ['%', '_', '?', '*', '[', ']'] ∧ likeChar char = [char] := by
  by_cases percent : char = '%'
  · exact .inl percent
  by_cases underscore : char = '_'
  · exact .inr (.inl underscore)
  unfold likeChar escapeChar
  rw [if_neg percent, if_neg underscore]
  by_cases special : char ∈ ['?', '*', '[', ']']
  · exact .inr (.inr (.inl ⟨special, if_pos special⟩))
  · refine .inr (.inr (.inr ⟨?_, if_neg special⟩))
    simpa [percent, underscore] using special

/-- Only a percent sign becomes a star. -/
theorem head?_of_likeChars {pattern : List Char}
    (star : (pattern.flatMap likeChar).head? = some '*') : pattern.head? = some '%' := by
  cases pattern with
  | nil => cases star
  | cons char rest =>
      rw [List.flatMap_cons] at star
      rcases likeChar_cases char with rfl | rfl | ⟨-, becomes⟩ | ⟨plain, becomes⟩
      · rfl
      · cases star
      · rw [becomes] at star
        cases star
      · rw [becomes] at star
        obtain rfl : char = '*' := Option.some.inj star
        exact absurd (by decide) plain

/-- Only a slash becomes a slash. -/
theorem exists_of_likeChars_slash {pattern more : List Char}
    (same : pattern.flatMap likeChar = '/' :: more) :
    ∃ rest, pattern = '/' :: rest ∧ rest.flatMap likeChar = more := by
  cases pattern with
  | nil => cases same
  | cons char rest =>
      rw [List.flatMap_cons] at same
      rcases likeChar_cases char with rfl | rfl | ⟨-, becomes⟩ | ⟨-, becomes⟩
      · cases same
      · cases same
      · rw [becomes] at same
        cases same
      · rw [becomes] at same
        obtain ⟨rfl, rfl⟩ := List.cons.inj same
        exact ⟨rest, rfl, rfl⟩

/-- Only the empty pattern becomes the empty one. -/
theorem eq_nil_of_likeChars {pattern : List Char} (ends : pattern.flatMap likeChar = []) :
    pattern = [] := by
  cases pattern with
  | nil => rfl
  | cons char pattern =>
      have nothing := List.flatMap_eq_nil_iff.1 ends char (.head _)
      rcases likeChar_cases char with rfl | rfl | ⟨-, becomes⟩ | ⟨-, becomes⟩
      · cases nothing
      · cases nothing
      · cases becomes.symm.trans nothing
      · cases becomes.symm.trans nothing

section Parsing

variable {position : Nat} {previous : Option Char} {rest : List Char} {tokens : List GlobToken}

theorem parseFrom_any : parseFrom position previous none ('?' :: rest) =
    (parseFrom (position + 1) (some '?') none rest).map (.anyChar :: ·) := by
  rw [parseFrom]

theorem parseFrom_run (single : rest.head? ≠ some '*') :
    parseFrom position previous none ('*' :: rest) =
      (parseFrom (position + 1) (some '*') none rest).map (.anyRun :: ·) := by
  rw [parseFrom] <;>
  · rintro _ rfl
    exact single rfl

theorem parseFrom_char {char : Char} (plain : char ∉ ['?', '*', '[']) :
    parseFrom position previous none (char :: rest) =
      (parseFrom (position + 1) (some char) none rest).map (.char char :: ·) := by
  simp only [List.mem_cons, not_or] at plain
  rw [parseFrom] <;> simp_all

/-- A class of one character is left right away. -/
theorem parseFrom_escaped {char : Char} (other : char ≠ '!') :
    parseFrom position previous none ('[' :: char :: ']' :: rest) =
      (parseFrom (position + 3) (some ']') none rest).map (.oneOf [.char char] :: ·) := by
  rw [parseFrom]
  · rw [if_neg other, parseFrom, if_pos rfl]
    rfl
  · rintro _ _ same
    exact fun _ => other same

/-- Two stars have nothing or a slash on either side. -/
theorem parseFrom_components
    (parses : parseFrom position previous none ('*' :: '*' :: rest) = .ok tokens) :
    previous.any (· != '/') = false ∧ (rest = [] ∧ tokens = [.anyComponents] ∨
      ∃ more others, rest = '/' :: more ∧ tokens = .anyComponents :: others ∧
        parseFrom (position + 3) (some '/') none more = .ok others) := by
  rcases rest with _ | ⟨next, more⟩
  · rw [parseFrom] at parses
    split at parses
    · cases parses
    · next apart => exact ⟨Bool.eq_false_iff.2 apart, .inl ⟨rfl, (Except.ok.inj parses).symm⟩⟩
  by_cases slash : next = '/'
  · subst slash
    rw [parseFrom] at parses
    split at parses
    · cases parses
    · next apart =>
      obtain ⟨others, below, rfl⟩ := Except.map_eq_ok.1 parses
      exact ⟨Bool.eq_false_iff.2 apart, .inr ⟨more, others, rfl, rfl, below⟩⟩
  by_cases star : next = '*'
  · subst star
    rw [parseFrom] at parses
    cases parses
  · rw [parseFrom] at parses
    · split at parses <;> cases parses
    · exact fun _ same => star (List.cons.inj same).1
    · exact fun same => nomatch same
    · exact fun _ same => slash (List.cons.inj same).1

/-- The token that a character other than a percent sign becomes. -/
def likeToken (char : Char) : GlobToken :=
  if char = '_' then .anyChar
  else if char ∈ ['?', '*', '[', ']'] then .oneOf [.char char]
  else .char char

/-- The token accepts what the character means. -/
theorem accepts_likeToken {char first : Char} :
    (likeToken char).accepts false first = true ↔ char = '_' ∨ sameChar false first char = true := by
  unfold likeToken
  by_cases underscore : char = '_'
  · simp [underscore, GlobToken.accepts]
  · rw [if_neg underscore, or_iff_right underscore]
    split <;> simp [GlobToken.accepts, ClassItem.accepts]

/-- A character other than a percent sign is read as its token.  What is read behind it has no slash before
it unless the character is one. -/
theorem parseFrom_likeChar {char : Char} (other : char ≠ '%') (position : Nat) (previous : Option Char)
    (rest : List Char) :
    ∃ position' previous', previous'.any (· != '/') = decide (char ≠ '/') ∧
      parseFrom position previous none (likeChar char ++ rest) =
        (parseFrom position' previous' none rest).map (likeToken char :: ·) := by
  rcases likeChar_cases char with isPercent | rfl | ⟨special, becomes⟩ | ⟨plain, becomes⟩
  · exact absurd isPercent other
  · exact ⟨_, _, rfl, parseFrom_any⟩
  · have marks : char ≠ '!' ∧ char ≠ '_' ∧ char ≠ '/' := by
      refine ⟨?_, ?_, ?_⟩ <;>
      · rintro rfl
        exact absurd special (by decide)
    refine ⟨position + 3, some ']', by simp [marks.2.2], ?_⟩
    rw [becomes, likeToken, if_neg marks.2.1, if_pos special]
    exact parseFrom_escaped marks.1
  · simp only [List.mem_cons, not_or] at plain
    refine ⟨position + 1, some char, by by_cases slash : char = '/' <;> simp [slash], ?_⟩
    rw [becomes, likeToken, if_neg plain.2.1, if_neg (by simp [plain]), List.singleton_append,
      parseFrom_char (by simp [plain])]

end Parsing

/-- A character whose lower case is no small letter is its own lower case. -/
theorem eq_of_sameChar {char other : Char} (unlike : other.isLower = false)
    (same : sameChar false char other = true) (fixed : other.toLower = other) : char = other := by
  have lowers : char.toLower = other := (beq_iff_eq.1 same).trans fixed
  unfold Char.toLower at lowers
  split at lowers
  · next upper =>
    -- A capital letter becomes a small one.
    have least : 65 ≤ char.val.toNat := upper.1
    have most : char.val.toNat ≤ 90 := upper.2
    have shifted : char.val + 32 = other.val := congrArg Char.val lowers
    have shifted : (char.val.toNat + 32) % 2 ^ 32 = other.val.toNat := congrArg UInt32.toNat shifted
    have small : other.isLower = true := by
      refine Bool.and_eq_true_iff.2 ⟨decide_eq_true ?_, decide_eq_true ?_⟩
      · show 97 ≤ other.val.toNat
        omega
      · show other.val.toNat ≤ 122
        omega
    exact absurd small (by simp [unlike])
  · exact lowers

section Meaning

variable {pattern text : List Char} {char : Char}

theorem like_percent :
    Like ('%' :: pattern) text ↔ ∃ before after, text = before ++ after ∧ Like pattern after := by
  rw [Like, if_pos rfl]

theorem like_single (other : char ≠ '%') :
    Like (char :: pattern) text ↔ ∃ first rest, text = first :: rest ∧
      (char = '_' ∨ sameChar false first char = true) ∧ Like pattern rest := by
  rw [Like, if_neg other]

/-- What one pattern behind another means. -/
theorem like_append {left right : List Char} : Like (left ++ right) text ↔
    ∃ before after, text = before ++ after ∧ Like left before ∧ Like right after := by
  induction left generalizing text with
  | nil =>
      refine ⟨fun means => ⟨[], text, rfl, rfl, means⟩, ?_⟩
      rintro ⟨_, _, rfl, rfl, means⟩
      exact means
  | cons char left ih =>
      rw [List.cons_append]
      by_cases percent : char = '%'
      · subst percent
        rw [like_percent]
        constructor
        · rintro ⟨skipped, _, rfl, means⟩
          obtain ⟨before, after, rfl, begins, ends⟩ := ih.1 means
          exact ⟨skipped ++ before, after, (List.append_assoc ..).symm,
            like_percent.2 ⟨skipped, before, rfl, begins⟩, ends⟩
        · rintro ⟨_, after, rfl, begins, ends⟩
          obtain ⟨skipped, before, rfl, means⟩ := like_percent.1 begins
          exact ⟨skipped, before ++ after, List.append_assoc .., ih.2 ⟨before, after, rfl, means, ends⟩⟩
      · rw [like_single percent]
        constructor
        · rintro ⟨first, _, rfl, same, means⟩
          obtain ⟨before, after, rfl, begins, ends⟩ := ih.1 means
          exact ⟨first :: before, after, rfl, (like_single percent).2 ⟨first, before, rfl, same, begins⟩,
            ends⟩
        · rintro ⟨_, after, rfl, begins, ends⟩
          obtain ⟨first, before, rfl, same, means⟩ := (like_single percent).1 begins
          exact ⟨first, before ++ after, rfl, same, ih.2 ⟨before, after, rfl, means, ends⟩⟩

/-- A word between percent signs means any text with a part that the word means. -/
theorem like_inside {word : List Char} : Like ('%' :: (word ++ ['%'])) text ↔
    ∃ part, part <:+: text ∧ Like word part := by
  constructor
  · intro means
    obtain ⟨before, _, rfl, later⟩ := like_percent.1 means
    obtain ⟨part, after, rfl, inside, -⟩ := like_append.1 later
    exact ⟨part, ⟨before, after, List.append_assoc ..⟩, inside⟩
  · rintro ⟨part, ⟨before, after, rfl⟩, means⟩
    have ends : Like ['%'] after := like_percent.2 ⟨after, [], (List.append_nil after).symm, rfl⟩
    exact like_percent.2 ⟨before, part ++ after, List.append_assoc ..,
      like_append.2 ⟨part, after, rfl, means, ends⟩⟩

/-- A word means itself, in upper or lower case. -/
theorem like_of_map_eq {word : List Char} (same : text.map Char.toLower = word.map Char.toLower) :
    Like word text := by
  induction word generalizing text with
  | nil => exact List.map_eq_nil_iff.1 same
  | cons char word ih =>
      obtain ⟨first, rest, rfl, isFirst, later⟩ := List.map_eq_cons_iff.1 same
      by_cases percent : char = '%'
      · subst percent
        exact like_percent.2 ⟨[first], rest, rfl, ih later⟩
      · exact (like_single percent).2 ⟨first, rest, rfl, .inr (beq_iff_eq.2 isFirst), ih later⟩

/-- A text has a word inside exactly if a part of it is the word. -/
theorem infix_map_iff {word : List Char} : word.map Char.toLower <:+: text.map Char.toLower ↔
    ∃ part, part <:+: text ∧ part.map Char.toLower = word.map Char.toLower := by
  constructor
  · rintro ⟨before, after, split⟩
    obtain ⟨front, after, rfl, begins, -⟩ := List.map_eq_append_iff.1 split.symm
    obtain ⟨before, part, rfl, -, same⟩ := List.map_eq_append_iff.1 begins
    exact ⟨part, ⟨before, after, rfl⟩, same⟩
  · rintro ⟨part, inside, same⟩
    exact same ▸ inside.map _

/-- A word without percent signs and underscores means nothing else. -/
theorem like_iff_of_plain {word : List Char} (plain : '%' ∉ word ∧ '_' ∉ word) :
    Like word text ↔ text.map Char.toLower = word.map Char.toLower := by
  refine ⟨fun means => ?_, like_of_map_eq⟩
  induction word generalizing text with
  | nil => exact congrArg (List.map Char.toLower) means
  | cons char word ih =>
      have other : char ≠ '%' ∧ char ≠ '_' :=
        ⟨fun same => plain.1 (same ▸ .head _), fun same => plain.2 (same ▸ .head _)⟩
      obtain ⟨first, rest, rfl, same, means⟩ := (like_single other.1).1 means
      rw [List.map_cons, List.map_cons, beq_iff_eq.1 (same.resolve_left other.2),
        ih ⟨fun later => plain.1 (.tail _ later), fun later => plain.2 (.tail _ later)⟩ means]

end Meaning

end Glob

namespace Value

/-- A comparison with a wildcard pattern is answered if the pattern is read, by whether it matches. -/
theorem isLike_eq_ok {caseSensitive : Bool} {pattern : String} {value : Value} {truth : Truth} :
    value.isLike caseSensitive pattern = .ok truth ↔
      ∃ tokens, Glob.parse pattern = .ok tokens ∧
        truth = some (Glob.isMatch caseSensitive tokens value.toText) := by
  rw [isLike]
  cases Glob.parse pattern with
  | error error => simp [fail]
  | ok tokens => simp [eq_comm]

theorem isLike_eq_error {caseSensitive : Bool} {pattern : String} {value : Value} :
    (∃ error, value.isLike caseSensitive pattern = .error error) ↔
      ¬ ∃ tokens, Glob.parse pattern = .ok tokens := by
  rw [isLike]
  cases Glob.parse pattern with
  | error error => simp [fail]
  | ok tokens => simp

end Value

end Medley
