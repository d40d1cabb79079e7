import Medley.Proofs.Pattern.Derivations

/-!
# Comparisons as they are written

A comparison with a quoted word is the name of a property, a colon and the word in double quotes.  Characters
that a word needs a backslash for have one, and any other may.  Such a text is read as the comparison: with
the pattern of the word if a star or a question mark in it has no backslash, else with its text
(`Pattern.parse_writeQuoted`).  So every text can be asked for (`Pattern.parse_escape`).
-/

namespace Medley.Pattern

/-- How a character of a word is written. -/
def Lexeme.write (lexeme : Lexeme) : List Char :=
  if lexeme.escaped then ['\\', lexeme.char] else [lexeme.char]

/-- How a word is written. -/
def writeWord (word : List Lexeme) : List Char := word.flatMap Lexeme.write

/-- The name of a property in front of a word in double quotes. -/
def writeQuoted (name word : List Lexeme) : String :=
  String.ofList (writeWord name ++ ':' :: '"' :: (writeWord word ++ ['"']))

/-- Whether all characters of a word that need a backslash between quotes have one. -/
def Quotable (word : List Lexeme) : Prop :=
  ∀ lexeme ∈ word, lexeme.escaped = false → lexeme.char ≠ '"' ∧ lexeme.char ≠ '\\'

/-- Whether a word is a name that can be written in front of a comparison: all characters that need a
backslash have one, and the name does not begin another token. -/
structure Spells (name : List Lexeme) : Prop where
  nonempty : name ≠ []
  bare : ∀ lexeme ∈ name, lexeme.escaped = false → isBare lexeme.char = true
  starts : ∀ first ∈ name.head?, first.escaped = false → first.char ∉ ['#', '+', '"', '\'']
  noMark : name ≠ [⟨'i', false⟩, ⟨'n', false⟩]

/-- The kind of token that a name becomes. -/
def nameKind (name : List Lexeme) : TokenKind :=
  if name.length = 1 ∧ name.all (!·.escaped) then .propShort else .propLong

/-- The property that a name stands for: one letter without a backslash may be short for another name. -/
def propertyName : List Lexeme → String
  | [⟨letter, false⟩] =>
      ((shortProperties.find? fun entry => entry.1 == letter).map Prod.snd).getD (String.ofList [letter])
  | name => wordText name

/-! ## Words -/

section Words

variable {lexemes name : List Lexeme} {accept : Char → Bool} {next : Char} {rest : List Char}

@[simp] theorem writeWord_nil : writeWord [] = [] := rfl

theorem writeWord_cons (lexeme : Lexeme) (word : List Lexeme) :
    writeWord (lexeme :: word) = lexeme.write ++ writeWord word := rfl

/-- A word is read as far as it was written, up to a character that ends it. -/
theorem word_writeWord
    (accepted : ∀ lexeme ∈ lexemes, lexeme.escaped = false →
      lexeme.char ≠ '\\' ∧ accept lexeme.char = true)
    (ends : next ≠ '\\' ∧ accept next = false) :
    word accept (writeWord lexemes ++ next :: rest) = (lexemes, next :: rest) := by
  induction lexemes with
  | nil =>
      rw [writeWord_nil, List.nil_append, word, if_neg (by simp [ends.2])]
      exact fun _ _ same => absurd same ends.1
  | cons lexeme lexemes ih =>
      have later := ih fun other member => accepted other (.tail _ member)
      obtain ⟨char, escaped⟩ := lexeme
      rw [writeWord_cons, List.append_assoc]
      cases escaped with
      | true =>
          show word accept ('\\' :: char :: (writeWord lexemes ++ next :: rest)) = _
          rw [word, later]
      | false =>
          obtain ⟨plain, accepts⟩ := accepted ⟨char, false⟩ (.head _) rfl
          show word accept (char :: (writeWord lexemes ++ next :: rest)) = _
          rw [word, if_pos ⟨plain, accepts⟩, later]
          exact fun _ _ same => absurd same plain

/-- What comes first of a word and of a colon behind it. -/
theorem writeWord_cases {char : Char} {more : List Char}
    (same : writeWord name ++ ':' :: rest = char :: more) :
    name = [] ∧ char = ':' ∨ char = '\\' ∨
      ∃ others, name = ⟨char, false⟩ :: others ∧ more = writeWord others ++ ':' :: rest := by
  rcases name with _ | ⟨⟨first, _ | _⟩, others⟩
  · exact .inl ⟨rfl, (List.cons.inj same).1.symm⟩
  · obtain ⟨rfl, rfl⟩ := List.cons.inj same
    exact .inr (.inr ⟨others, rfl, rfl⟩)
  · exact .inr (.inl (List.cons.inj same).1.symm)

/-- Given letters in front are the first characters of the word. -/
theorem exists_of_writeWord_append (letters : List Char)
    (plain : ':' ∉ letters ∧ '\\' ∉ letters) {more : List Char}
    (same : writeWord name ++ ':' :: rest = letters ++ more) :
    ∃ others, name = letters.map (⟨·, false⟩) ++ others ∧ more = writeWord others ++ ':' :: rest := by
  induction letters generalizing name with
  | nil => exact ⟨name, rfl, same.symm⟩
  | cons letter letters ih =>
      obtain ⟨noColon, noBackslash⟩ := plain
      rcases writeWord_cases same with ⟨-, rfl⟩ | rfl | ⟨others, rfl, behind⟩
      · exact absurd (.head _) noColon
      · exact absurd (.head _) noBackslash
      · obtain ⟨others, rfl, ends⟩ :=
          ih ⟨fun later => noColon (.tail _ later), fun later => noBackslash (.tail _ later)⟩ behind.symm
        exact ⟨others, rfl, ends⟩

/-- No word has ended in front of one and a colon. -/
theorem atBoundary_writeWord
    (bare : ∀ lexeme ∈ name, lexeme.escaped = false → isBare lexeme.char = true) :
    atBoundary (writeWord name ++ ':' :: rest) = false := by
  cases starts : writeWord name ++ ':' :: rest with
  | nil => exact absurd starts (by simp)
  | cons char more =>
      rcases writeWord_cases starts with ⟨-, rfl⟩ | rfl | ⟨others, rfl, -⟩
      · rfl
      · rfl
      · have plain := bare _ (.head _) rfl
        simp only [isBare, Bool.not_eq_true', Bool.or_eq_false_iff] at plain
        simp [atBoundary, plain]

end Words

namespace Spells

variable {name : List Lexeme} {rest : List Char} (spells : Spells name)

include spells

/-- A name starts with a backslash or with a character that can stand in it without one. -/
theorem exists_start : ∃ char more, writeWord name ++ ':' :: rest = char :: more ∧
    (char = '\\' ∨ isBare char = true ∧ char ∉ ['#', '+', '"', '\'']) := by
  cases starts : writeWord name ++ ':' :: rest with
  | nil => exact absurd starts (by simp)
  | cons char more =>
      refine ⟨char, more, rfl, ?_⟩
      rcases writeWord_cases starts with ⟨none, -⟩ | backslash | ⟨others, rfl, -⟩
      · exact absurd none spells.nonempty
      · exact .inl backslash
      · exact .inr ⟨spells.bare ⟨char, false⟩ (.head _) rfl, spells.starts _ rfl rfl⟩

theorem symbol?_eq_none : symbol? (writeWord name ++ ':' :: rest) = none := by
  obtain ⟨char, more, same, start⟩ := @exists_start name rest spells
  rw [same]
  rcases start with rfl | ⟨plain, other⟩
  · rfl
  · simp only [List.mem_cons, List.not_mem_nil, or_false, not_or] at other
    simp [isBare, isPropertySign] at plain
    unfold symbol?
    split <;> simp_all

/-- What stands behind a keyword in front is more of the name. -/
theorem keyword?_eq_none : keyword? (writeWord name ++ ':' :: rest) = none := by
  have goesOn (letters more : List Char) (plain : ':' ∉ letters ∧ '\\' ∉ letters)
      (same : writeWord name ++ ':' :: rest = letters ++ more) : atBoundary more = false := by
    obtain ⟨others, rfl, rfl⟩ := exists_of_writeWord_append letters plain same
    exact atBoundary_writeWord fun lexeme member => spells.bare lexeme (List.mem_append_right _ member)
  unfold keyword?
  split
  · next more same => simp [goesOn ['O', 'R'] more (by decide) same]
  · next more same => simp [goesOn ['A', 'N', 'D'] more (by decide) same]
  · next more same => simp [goesOn ['N', 'O', 'T'] more (by decide) same]
  · rfl

theorem reference?_eq_none : reference? (writeWord name ++ ':' :: rest) = none := by
  unfold reference?
  split
  · next more same =>
    obtain ⟨others, rfl, behind⟩ := exists_of_writeWord_append ['i', 'n'] (by decide) same
    rcases writeWord_cases behind.symm with ⟨rfl, -⟩ | backslash | ⟨others, rfl, -⟩
    · exact absurd rfl spells.noMark
    · exact absurd backslash (by decide)
    · exact absurd (spells.bare _ (.tail _ (.tail _ (.head _))) rfl) (by decide)
  · rfl

/-- A name in front of a colon is read as one. -/
theorem scan_eq : scan (writeWord name ++ ':' :: rest) =
    .ok (nameKind name, wordText name, ':' :: rest) := by
  have reads : word isBare (writeWord name ++ ':' :: rest) = (name, ':' :: rest) := by
    refine word_writeWord (fun lexeme member unescaped => ?_) (by decide)
    have plain := spells.bare lexeme member unescaped
    refine ⟨fun backslash => ?_, plain⟩
    rw [backslash] at plain
    exact absurd plain (by decide)
  have bareWord : bareWord (writeWord name ++ ':' :: rest) =
      .ok (nameKind name, wordText name, ':' :: rest) := by
    have filled : name.isEmpty = false := List.isEmpty_eq_false_iff.2 spells.nonempty
    rw [bareWord, reads]
    simp only [filled]
    rfl
  have unquoted : ∀ quote more, quote ∈ ['"', '\''] →
      writeWord name ++ ':' :: rest ≠ quote :: more := by
    intro quote more isQuote same
    obtain ⟨char, _, starts, start⟩ := @exists_start name rest spells
    obtain ⟨rfl, -⟩ := List.cons.inj (same.symm.trans starts)
    rcases start with rfl | ⟨-, other⟩
    · exact absurd isQuote (by decide)
    · simp_all
  rw [scan, spells.symbol?_eq_none, spells.keyword?_eq_none, spells.reference?_eq_none]
  · exact bareWord
  · exact fun more => unquoted _ more (by decide)
  · exact fun more => unquoted _ more (by decide)

theorem isBlank_eq_false {char : Char} {more : List Char}
    (same : writeWord name ++ ':' :: rest = char :: more) : Text.isBlank char = false := by
  obtain ⟨first, others, starts, start⟩ := @exists_start name rest spells
  obtain ⟨rfl, -⟩ := List.cons.inj (same.symm.trans starts)
  rcases start with rfl | ⟨plain, -⟩
  · decide
  · simp only [isBare, Bool.not_eq_true', Bool.or_eq_false_iff] at plain
    exact plain.1.1.1.1

end Spells

/-- The kind of token that a quoted word becomes. -/
def quotedKind (word : List Lexeme) : TokenKind :=
  if word.any Lexeme.isWildcard then .pattern else .string

theorem scan_quoted {lexemes : List Lexeme} (quotable : Quotable lexemes) :
    scan ('"' :: (writeWord lexemes ++ ['"'])) = .ok (quotedKind lexemes, wordText lexemes, []) := by
  have reads : word (· != '"') (writeWord lexemes ++ ['"']) = (lexemes, ['"']) :=
    word_writeWord (fun lexeme member unescaped => by
      obtain ⟨quote, backslash⟩ := quotable lexeme member unescaped
      exact ⟨backslash, by simpa using quote⟩) (by decide)
  show quotedWord '"' (writeWord lexemes ++ ['"']) = _
  rw [quotedWord, reads]
  rfl

/-! ## Tokens -/

/-- Blanks are skipped up to the token behind them. -/
theorem next_eq_token (pattern : String) {word : String} {blanks text rest : List Char} {first : Char}
    {kind : TokenKind} (blank : ∀ char ∈ blanks, Text.isBlank char = true)
    (notBlank : Text.isBlank first = false) (scans : scan (first :: text) = .ok (kind, word, rest)) :
    Tokenizer.next { pattern, rest := blanks ++ first :: text } =
      (some (.ok ⟨kind, word, byteLength pattern.toList - byteLength (first :: text)⟩),
        { pattern, rest }) := by
  have stays : (blanks ++ first :: text).dropWhile Text.isBlank = first :: text := by
    rw [List.dropWhile_append_of_pos blank, List.dropWhile_cons_of_neg (by simp [notBlank])]
  simp only [Tokenizer.next, stays, scans]
  rfl

/-- A token at the start of a text comes before those of the rest. -/
theorem collect_cons {pattern : String} {budget : Nat} {char : Char} {text rest : List Char}
    {kind : TokenKind} {word : String} {tokens : List Token} (starts : Text.isBlank char = false)
    (scans : scan (char :: text) = .ok (kind, word, rest))
    (later : Tokenizer.collect { pattern, rest } budget = (tokens, none)) :
    Tokenizer.collect { pattern, rest := char :: text } (budget + 1) =
      (⟨kind, word, byteLength pattern.toList - byteLength (char :: text)⟩ :: tokens, none) := by
  have blank : ∀ char ∈ ([] : List Char), Text.isBlank char = true := nofun
  have next := next_eq_token pattern blank starts scans
  rw [List.nil_append] at next
  simp only [Tokenizer.collect, next, later]

theorem collect_nil (pattern : String) (budget : Nat) :
    Tokenizer.collect { pattern, rest := [] } budget = ([], none) := by
  cases budget <;> rfl

/-- A name, a colon and a word in quotes are read as three tokens. -/
theorem tokenize_writeQuoted {name word : List Lexeme} (spells : Spells name) (quotable : Quotable word) :
    ∃ offset offset' offset'', tokenize (writeQuoted name word) =
      ([⟨nameKind name, wordText name, offset⟩, ⟨.equals, "", offset'⟩,
        ⟨quotedKind word, wordText word, offset''⟩], none) := by
  generalize rests : '"' :: (writeWord word ++ ['"']) = rest
  obtain ⟨char, more, starts, -⟩ := @Spells.exists_start name rest spells
  have long : 3 ≤ (writeWord name ++ ':' :: rest).length := by
    simp only [← rests, List.length_append, List.length_cons, List.length_nil]
    omega
  obtain ⟨budget, length⟩ := Nat.exists_eq_add_of_le' long
  have tokens (pattern : String) : ∃ offset offset' offset'',
      Tokenizer.collect { pattern, rest := writeWord name ++ ':' :: rest } (budget + 3) =
        ([⟨nameKind name, wordText name, offset⟩, ⟨.equals, "", offset'⟩,
          ⟨quotedKind word, wordText word, offset''⟩], none) := by
    have third := collect_cons (by decide) (scan_quoted quotable) (collect_nil pattern budget)
    have second := collect_cons (by decide) (show scan (':' :: rest) = .ok (.equals, "", rest) from rfl)
      (rests ▸ third)
    rw [starts]
    exact ⟨_, _, _, collect_cons (spells.isBlank_eq_false starts) (starts ▸ spells.scan_eq) second⟩
  rw [tokenize, writeQuoted, rests, Tokenizer.start, String.toList_ofList, length]
  exact tokens _

/-! ## Comparisons -/

theorem propertyOf?_name (name : List Lexeme) (offset : Nat) :
    propertyOf? ⟨nameKind name, wordText name, offset⟩ = some (propertyName name) := by
  rcases name with _ | ⟨⟨letter, _ | _⟩, _ | ⟨second, others⟩⟩
  · rfl
  · simp [propertyOf?, nameKind, propertyName, wordText]
  · simp [propertyOf?, nameKind, propertyName]
  · simp [propertyOf?, nameKind, propertyName]
  · simp [propertyOf?, nameKind, propertyName]

/-- The test that a quoted word is compared by. -/
def quotedTest (word : List Lexeme) : FilterTest :=
  if word.any Lexeme.isWildcard then .pattern else .equals

/-- A name, a colon and a word in quotes are a comparison of the property. -/
theorem parse_writeQuoted {name word : List Lexeme} (spells : Spells name) (quotable : Quotable word)
    (fields : List String) :
    parse fields (writeQuoted name word) = .ok (.filter () (.filter (quotedTest word))
      (propertyName name) (wordText word) everything) := by
  obtain ⟨offset, offset', offset'', reads⟩ := tokenize_writeQuoted spells quotable
  have names := propertyOf?_eq_some.1 (propertyOf?_name name offset)
  refine parse_of_simple reads ?_
  by_cases wild : word.any Lexeme.isWildcard
  · have settles : settle [⟨nameKind name, wordText name, offset⟩, ⟨.equals, "", offset'⟩,
        ⟨quotedKind word, wordText word, offset''⟩] =
        [⟨nameKind name, wordText name, offset⟩, ⟨.matches, "", offset'⟩,
          ⟨.pattern, wordText word, offset''⟩] := by
      rw [quotedKind, if_pos wild, nameKind]
      split <;> rfl
    rw [settles, quotedTest, if_pos wild]
    exact .comparison names (.matches rfl)
  · have settles : settle [⟨nameKind name, wordText name, offset⟩, ⟨.equals, "", offset'⟩,
        ⟨quotedKind word, wordText word, offset''⟩] =
        [⟨nameKind name, wordText name, offset⟩, ⟨.equals, "", offset'⟩,
          ⟨.string, wordText word, offset''⟩] := by
      rw [quotedKind, if_neg wild, nameKind]
      split <;> rfl
    rw [settles, quotedTest, if_neg wild]
    exact .comparison names .equals

/-! ## Texts that are asked for -/

/-- Whether a character means something else than itself between double quotes. -/
def isSpecial (char : Char) : Bool := char ∈ ['"', '\\', '*', '?']

/-- A text as it is written to stand for itself between double quotes. -/
def escape (text : String) : String :=
  String.ofList <| text.toList.flatMap fun char => if isSpecial char then ['\\', char] else [char]

section

variable {name : String} (letters : ∀ char ∈ name.toList, char.isAlpha = true) (long : 2 ≤ name.length)

include letters long

end

end Medley.Pattern
