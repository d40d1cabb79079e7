import Mathlib.Data.List.Induction
import Medley.Pattern.Token

/-!
# Kinds of words

A word is read character by character, and every character may change what kind of word it is taken for.
What it is taken for in the end depends on which characters it has, and not on where they stand
(`Pattern.classify_iff`): this is so of every beginning of the word, and stays so with one more character
(`Pattern.HasKind.extend`).
-/

namespace Medley

namespace Pattern

/-- Whether a word has only digits. -/
def IsNumber (word : List Lexeme) : Prop := ∀ lexeme ∈ word, lexeme.char.isDigit = true

/-- Whether a word has only digits, commas and minus signs. -/
def IsNumeric (word : List Lexeme) : Prop :=
  ∀ lexeme ∈ word, lexeme.char.isDigit = true ∨ lexeme.char = ',' ∨ lexeme.char = '-'

/-- Whether a word has a star or a question mark without a backslash. -/
def HasWildcard (word : List Lexeme) : Prop :=
  ∃ lexeme ∈ word, lexeme.escaped = false ∧ (lexeme.char = '*' ∨ lexeme.char = '?')

instance (word : List Lexeme) : Decidable (IsNumber word) :=
  inferInstanceAs (Decidable (∀ lexeme ∈ word, lexeme.char.isDigit = true))

instance (word : List Lexeme) : Decidable (IsNumeric word) :=
  inferInstanceAs (Decidable (∀ lexeme ∈ word,
    lexeme.char.isDigit = true ∨ lexeme.char = ',' ∨ lexeme.char = '-'))

instance (word : List Lexeme) : Decidable (HasWildcard word) :=
  inferInstanceAs (Decidable (∃ lexeme ∈ word,
    lexeme.escaped = false ∧ (lexeme.char = '*' ∨ lexeme.char = '?')))

/-- Which words are of a kind. -/
def HasKind (word : List Lexeme) : TokenKind → Prop
  | .integer => IsNumber word
  | .sequence => IsNumeric word ∧ ∃ lexeme ∈ word, lexeme.char.isDigit = false
  | .pattern => HasWildcard word
  | .string => ¬ IsNumeric word ∧ ¬ HasWildcard word
  | _ => False

section Kinds

variable {lexeme : Lexeme} {word : List Lexeme} {kind other : TokenKind}

theorem Lexeme.isSequential_eq_true : lexeme.isSequential = true ↔
    lexeme.char.isDigit = true ∨ lexeme.char = ',' ∨ lexeme.char = '-' := by
  simp [isSequential, or_assoc]

theorem Lexeme.isWildcard_eq_true : lexeme.isWildcard = true ↔
    lexeme.escaped = false ∧ (lexeme.char = '*' ∨ lexeme.char = '?') := by
  simp [isWildcard]

/-- No character of a sequence stands for others. -/
theorem Lexeme.not_isWildcard_of_isSequential (sequential : lexeme.isSequential = true) :
    ¬ lexeme.isWildcard = true := by
  intro wild
  rw [isSequential_eq_true] at sequential
  rw [isWildcard_eq_true] at wild
  cases wild.2 with
  | inl star => simp [star] at sequential
  | inr any => simp [any] at sequential

theorem IsNumber.isNumeric (number : IsNumber word) : IsNumeric word :=
  fun lexeme member => .inl (number lexeme member)

theorem IsNumeric.not_hasWildcard (numeric : IsNumeric word) : ¬ HasWildcard word := by
  intro wild
  obtain ⟨lexeme, member, stands⟩ := wild
  exact lexeme.not_isWildcard_of_isSequential (Lexeme.isSequential_eq_true.2 (numeric lexeme member))
    (Lexeme.isWildcard_eq_true.2 stands)

/-! ## One more character -/

theorem isNumber_concat :
    IsNumber (word ++ [lexeme]) ↔ IsNumber word ∧ lexeme.char.isDigit = true := by
  simp [IsNumber, or_imp, forall_and]

theorem isNumeric_concat :
    IsNumeric (word ++ [lexeme]) ↔ IsNumeric word ∧ lexeme.isSequential = true := by
  simp [IsNumeric, Lexeme.isSequential_eq_true, or_imp, forall_and]

theorem hasWildcard_concat :
    HasWildcard (word ++ [lexeme]) ↔ HasWildcard word ∨ lexeme.isWildcard = true := by
  simp [HasWildcard, Lexeme.isWildcard_eq_true, or_and_right, exists_or]

/-- A word that is no sequence and had no wildcard is a pattern if the last character is a wildcard. -/
theorem HasKind.text (text : ¬ IsNumeric (word ++ [lexeme])) (plain : ¬ HasWildcard word) :
    HasKind (word ++ [lexeme]) (if lexeme.isWildcard then .pattern else .string) := by
  split
  · next wild => exact hasWildcard_concat.2 (.inr wild)
  · next tame =>
    refine ⟨text, ?_⟩
    intro wild
    cases hasWildcard_concat.1 wild with
    | inl before => exact plain before
    | inr last => exact tame last

/-- One more character makes of a kind of word what the longer word is. -/
theorem HasKind.extend (has : HasKind word kind) (lexeme : Lexeme) :
    HasKind (word ++ [lexeme]) (kind.extend lexeme) := by
  cases kind with
  | integer =>
      have numeric := IsNumber.isNumeric has
      have text (other : ¬ lexeme.isSequential = true) : ¬ IsNumeric (word ++ [lexeme]) :=
        fun both => other (isNumeric_concat.1 both).2
      show HasKind _ (ite _ _ _)
      split
      · next sign =>
        have last : lexeme ∈ word ++ [lexeme] := List.mem_append_right _ (List.mem_singleton_self _)
        refine ⟨isNumeric_concat.2 ⟨numeric, Lexeme.isSequential_eq_true.2 (.inr sign)⟩,
          lexeme, last, ?_⟩
        cases sign with
        | inl comma => rw [comma]; rfl
        | inr minus => rw [minus]; rfl
      · next noSign =>
        split
        · next sequential =>
          refine isNumber_concat.2 ⟨has, ?_⟩
          exact (Lexeme.isSequential_eq_true.1 sequential).resolve_right noSign
        · next other => exact .text (text other) numeric.not_hasWildcard
  | sequence =>
      obtain ⟨numeric, sign, member, noDigit⟩ := has
      show HasKind _ (ite _ _ _)
      split
      · next sequential =>
        exact ⟨isNumeric_concat.2 ⟨numeric, sequential⟩, sign, List.mem_append_left _ member, noDigit⟩
      · next other =>
        exact .text (fun both => other (isNumeric_concat.1 both).2) numeric.not_hasWildcard
  | string => exact .text (fun both => has.1 (isNumeric_concat.1 both).1) has.2
  | pattern => exact hasWildcard_concat.2 (.inl has)
  | _ => exact has.elim

theorem hasKind_classify (word : List Lexeme) : HasKind word (classify word) := by
  induction word using List.reverseRecOn with
  | nil =>
      intro lexeme member
      cases member
  | append_singleton word lexeme ih =>
      rw [classify, List.foldl_append]
      exact ih.extend lexeme

theorem not_isNumber_iff : ¬ IsNumber word ↔ ∃ lexeme ∈ word, lexeme.char.isDigit = false := by
  simp [IsNumber]

/-- No word is of two kinds. -/
theorem HasKind.eq (has : HasKind word kind) : kind =
    if IsNumber word then .integer
    else if IsNumeric word then .sequence
    else if HasWildcard word then .pattern
    else .string := by
  cases kind with
  | integer =>
      have number : IsNumber word := has
      rw [if_pos number]
  | sequence => rw [if_neg (not_isNumber_iff.2 has.2), if_pos has.1]
  | pattern =>
      have wild : HasWildcard word := has
      have text : ¬ IsNumeric word := fun numeric => numeric.not_hasWildcard wild
      rw [if_neg (fun number => text number.isNumeric), if_neg text, if_pos wild]
  | string => rw [if_neg (fun number => has.1 number.isNumeric), if_neg has.1, if_neg has.2]
  | _ => exact has.elim

theorem classify_eq_iff : classify word = kind ↔ HasKind word kind := by
  constructor
  · intro same
    rw [← same]
    exact hasKind_classify word
  · intro has
    rw [(hasKind_classify word).eq, has.eq]

/-- What kind of word a word without a property sign behind it is. -/
theorem classify_iff (word : List Lexeme) :
    (classify word = .integer ↔ IsNumber word) ∧
    (classify word = .sequence ↔
      IsNumeric word ∧ ∃ lexeme ∈ word, lexeme.char.isDigit = false) ∧
    (classify word = .pattern ↔ HasWildcard word) ∧
    (classify word = .string ↔ ¬ IsNumber word ∧
      ¬ (IsNumeric word ∧ ∃ lexeme ∈ word, lexeme.char.isDigit = false) ∧ ¬ HasWildcard word) := by
  refine ⟨classify_eq_iff, classify_eq_iff, classify_eq_iff, classify_eq_iff.trans ?_⟩
  rw [← not_isNumber_iff]
  constructor
  · intro has
    exact ⟨fun number => has.1 number.isNumeric, fun both => has.1 both.1, has.2⟩
  · intro none
    exact ⟨fun numeric => none.2.1 ⟨numeric, none.1⟩, none.2.2⟩

/-- A digit behind a backslash is a digit, and a star behind one is no wildcard. -/
example : classify [⟨'1', true⟩, ⟨'2', false⟩] = .integer ∧
    classify [⟨'1', false⟩, ⟨'*', true⟩] = .string := by
  decide

end Kinds

end Pattern

end Medley
