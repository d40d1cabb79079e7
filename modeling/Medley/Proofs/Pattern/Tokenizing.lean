import Mathlib.Algebra.Ring.Parity
import Mathlib.Data.List.Basic
import Mathlib.Data.List.Induction
import Mathlib.Data.List.TakeWhile
import Medley.Proofs.Pattern.Spelling

/-!
# How a pattern is cut into tokens

The stream of tokens of a pattern is finite.  Its tokens stand one after the other with nothing but blanks
in front of and between them, and every token begins where its offset says, at a character that is not
blank.  Reading fails for one reason: the pattern ends with an odd number of backslashes, so that the last of
them escapes nothing.  The error is the last item then, and its place is that backslash
(`Pattern.tokenize_cuts`).
-/

namespace Medley.Pattern

/-! ## Backslashes at the end -/

/-- How many backslashes a text ends with. -/
def trailingBackslashes (text : List Char) : Nat := (text.reverse.takeWhile (· = '\\')).length

/-- Whether a text ends with an odd number of backslashes. -/
def Dangling (text : List Char) : Prop := Odd (trailingBackslashes text)

instance (text : List Char) : Decidable (Dangling text) :=
  inferInstanceAs (Decidable (Odd (trailingBackslashes text)))

section Dangling

variable {front rest text : List Char} {char : Char}

theorem trailingBackslashes_concat (front : List Char) (char : Char) :
    trailingBackslashes (front ++ [char]) =
      if char = '\\' then trailingBackslashes front + 1 else 0 := by
  rw [trailingBackslashes, List.reverse_concat, List.takeWhile_cons]
  by_cases backslash : char = '\\'
  · simp [backslash, trailingBackslashes]
  · simp [backslash]

theorem not_dangling_nil : ¬ Dangling [] := by decide

theorem dangling_concat : Dangling (front ++ [char]) ↔ char = '\\' ∧ ¬ Dangling front := by
  rw [Dangling, trailingBackslashes_concat]
  by_cases backslash : char = '\\'
  · simp [backslash, Dangling, Nat.odd_add_one]
  · simp [backslash]

/-- Behind a text that leaves no backslash open, only the rest decides. -/
theorem dangling_append (settled : ¬ Dangling front) : Dangling (front ++ rest) ↔ Dangling rest := by
  induction rest using List.reverseRecOn with
  | nil => simp [settled, not_dangling_nil]
  | append_singleton rest char ih => rw [← List.append_assoc, dangling_concat, dangling_concat, ih]

theorem not_dangling_append (settled : ¬ Dangling front) (settled' : ¬ Dangling rest) :
    ¬ Dangling (front ++ rest) := (dangling_append settled).not.2 settled'

theorem not_dangling_of_forall (plain : ∀ char ∈ text, char ≠ '\\') : ¬ Dangling text := by
  rcases List.eq_nil_or_concat' text with rfl | ⟨front, char, rfl⟩
  · exact not_dangling_nil
  · exact fun dangling => plain char (by simp) (dangling_concat.1 dangling).1

/-- A word whose plain characters are no backslashes leaves none open. -/
theorem not_dangling_writeWord {lexemes : List Lexeme}
    (plain : ∀ lexeme ∈ lexemes, lexeme.escaped = false → lexeme.char ≠ '\\') :
    ¬ Dangling (writeWord lexemes) := by
  induction lexemes with
  | nil => exact not_dangling_nil
  | cons lexeme lexemes ih =>
      rw [writeWord_cons]
      refine not_dangling_append ?_ (ih fun other member => plain other (.tail _ member))
      obtain ⟨char, _ | _⟩ := lexeme
      · exact not_dangling_of_forall (by simpa [Lexeme.write] using plain _ (.head _) rfl)
      · show ¬ Dangling (['\\'] ++ [char])
        rw [dangling_concat]
        exact fun ⟨_, settled⟩ => settled (by decide)

theorem not_dangling_of_isBlank (blank : ∀ char ∈ text, Text.isBlank char = true) :
    ¬ Dangling text := by
  refine not_dangling_of_forall fun char member backslash => ?_
  have blank := blank char member
  rw [backslash] at blank
  exact absurd blank (by decide)

end Dangling

/-! ## One token -/

section Scanning

variable {text left rest more : List Char} {first : Char} {kind : TokenKind}

/-- A word takes its characters as they are written, and stops at the end, at a backslash there, or at a
character that it does not accept. -/
theorem word_spec {accept : Char → Bool} {lexemes : List Lexeme}
    (reads : word accept text = (lexemes, left)) :
    text = writeWord lexemes ++ left ∧
    (∀ lexeme ∈ lexemes, lexeme.escaped = false → lexeme.char ≠ '\\') ∧
    (left = [] ∨ left = ['\\'] ∨
      ∃ next rest, left = next :: rest ∧ next ≠ '\\' ∧ accept next = false) := by
  fun_induction word accept text generalizing lexemes left with
  | case1 =>
      obtain ⟨rfl, rfl⟩ := Prod.mk.inj reads
      exact ⟨rfl, nofun, .inl rfl⟩
  | case2 char rest taken behind later ih =>
      obtain ⟨rfl, rfl⟩ := Prod.mk.inj reads
      obtain ⟨same, plain, ends⟩ := ih later
      refine ⟨congrArg ('\\' :: char :: ·) same, ?_, ends⟩
      rintro lexeme (_ | ⟨_, member⟩) unescaped
      · cases unescaped
      · exact plain lexeme member unescaped
  | case3 char rest lone accepted taken behind later ih =>
      obtain ⟨rfl, rfl⟩ := Prod.mk.inj reads
      obtain ⟨same, plain, ends⟩ := ih later
      refine ⟨congrArg (char :: ·) same, ?_, ends⟩
      rintro lexeme (_ | ⟨_, member⟩) unescaped
      · exact accepted.1
      · exact plain lexeme member unescaped
  | case4 char rest lone refused =>
      obtain ⟨rfl, rfl⟩ := Prod.mk.inj reads
      refine ⟨rfl, nofun, ?_⟩
      by_cases backslash : char = '\\'
      · subst backslash
        cases rest with
        | nil => exact .inr (.inl rfl)
        | cons next rest => exact absurd rfl (lone next rest rfl)
      · exact .inr (.inr ⟨char, rest, rfl, backslash, by simpa [backslash] using refused⟩)

/-- The symbols, the keywords and the mark of a reference. -/
def signs : List (List Char) :=
  [['('], [')'], ['#'], ['+'], [':'], ['~'], ['<', '='], ['>', '='], ['<'], ['>'],
   ['O', 'R'], ['A', 'N', 'D'], ['N', 'O', 'T'], ['i', 'n', ':']]

theorem exists_sign
    (reads : (symbol? text).or ((keyword? text).or (reference? text)) = some (kind, rest)) :
    ∃ sign ∈ signs, text = sign ++ rest := by
  rcases Option.or_eq_some_iff.1 reads with symbol | ⟨-, reads⟩
  · unfold symbol? at symbol
    split at symbol <;> cases symbol <;>
      first | exact ⟨[_], by decide, rfl⟩ | exact ⟨[_, _], by decide, rfl⟩
  rcases Option.or_eq_some_iff.1 reads with keyword | ⟨-, mark⟩
  · obtain ⟨found, -⟩ := Option.filter_eq_some_iff.1 keyword
    split at found <;> cases found <;>
      first | exact ⟨[_, _], by decide, rfl⟩ | exact ⟨[_, _, _], by decide, rfl⟩
  · unfold reference? at mark
    split at mark <;> cases mark
    exact ⟨[_, _, _], by decide, rfl⟩

/-- What reading at a text gives: a token of one character or more that leaves no backslash open, or the
error of a backslash at the very end. -/
inductive Scans : List Char → Scanned → Prop where
  | token {taken : List Char} (kind : TokenKind) (word : String) (rest : List Char)
      (filled : taken ≠ []) (settled : ¬ Dangling taken) :
      Scans (taken ++ rest) (.ok (kind, word, rest))
  | failure {taken : List Char} (settled : ¬ Dangling taken) :
      Scans (taken ++ ['\\']) (.error (.trailingBackslash, ['\\']))

theorem quotedWord_scans {quote : Char} (plain : quote ≠ '\\') (text : List Char) :
    Scans (quote :: text) (quotedWord quote text) := by
  obtain ⟨lexemes, left, reads⟩ : ∃ lexemes left, word (· != quote) text = (lexemes, left) :=
    ⟨_, _, rfl⟩
  obtain ⟨rfl, unescaped, ends⟩ := word_spec reads
  have opened : ¬ Dangling ([quote] ++ writeWord lexemes) :=
    not_dangling_append (not_dangling_of_forall (by simpa using plain))
      (not_dangling_writeWord unescaped)
  rw [quotedWord, reads]
  rcases ends with rfl | rfl | ⟨next, rest, rfl, -, closes⟩
  · exact @Scans.token ([quote] ++ writeWord lexemes) _ _ [] (by simp) opened
  · simp only [if_neg plain.symm]
    exact @Scans.failure ([quote] ++ writeWord lexemes) opened
  · obtain rfl : next = quote := by simpa using closes
    have shut : ¬ Dangling [next] := not_dangling_of_forall (by simpa using plain)
    have closed := not_dangling_append opened shut
    have reading := Scans.token (if lexemes.any Lexeme.isWildcard then .pattern else .string)
      (wordText lexemes) rest (by simp) closed
    simpa using reading

theorem bareWord_scans (starts : isBare first = true ∨ first = '\\') :
    Scans (first :: more) (bareWord (first :: more)) := by
  obtain ⟨lexemes, left, reads⟩ : ∃ lexemes left, word isBare (first :: more) = (lexemes, left) :=
    ⟨_, _, rfl⟩
  obtain ⟨same, unescaped, ends⟩ := word_spec reads
  have settled := not_dangling_writeWord unescaped
  have word (kind : TokenKind) (filled : lexemes ≠ []) :
      Scans (writeWord lexemes ++ left) (.ok (kind, wordText lexemes, left)) := by
    refine .token kind _ left (fun none => ?_) settled
    obtain ⟨⟨char, _ | _⟩, others, rfl⟩ := List.exists_cons_of_ne_nil filled <;> cases none
  rw [bareWord, reads, same]
  rcases ends with rfl | rfl | ⟨next, rest, rfl, noBackslash, refused⟩
  · have filled : lexemes ≠ [] := by
      rintro rfl
      cases same
    simpa [filled] using word _ filled
  · exact .failure settled
  · have filled : lexemes ≠ [] := by
      rintro rfl
      obtain ⟨rfl, -⟩ := List.cons.inj same
      rcases starts with bare | backslash
      · exact absurd (bare.symm.trans refused) (by decide)
      · exact noBackslash backslash
    dsimp only
    split
    · next same => exact absurd (List.cons.inj same).1 noBackslash
    · simpa [filled] using word _ filled

/-- A character at which neither a blank nor a symbol nor a backslash stands begins a bare word. -/
theorem isBare_of_symbol?_eq_none (notBlank : Text.isBlank first = false)
    (noSymbol : symbol? (first :: more) = none) (noBackslash : first ≠ '\\') :
    isBare first = true := by
  have other : first ∉ ['(', ')', ':', '~', '<', '>'] := by
    intro sign
    simp only [List.mem_cons, List.not_mem_nil, or_false] at sign
    unfold symbol? at noSymbol
    split at noSymbol
    case h_11 opens closes _ _ colon tilde _ _ smaller greater =>
      rcases sign with rfl | rfl | rfl | rfl | rfl | rfl
      exacts [opens _ rfl, closes _ rfl, colon _ rfl, tilde _ rfl, smaller _ rfl, greater _ rfl]
    all_goals cases noSymbol
  simp only [List.mem_cons, List.not_mem_nil, or_false, not_or] at other
  simp [isBare, isPropertySign, notBlank, noBackslash, other]

theorem scan_scans (notBlank : Text.isBlank first = false) :
    Scans (first :: more) (scan (first :: more)) := by
  unfold scan
  cases sign : (symbol? (first :: more)).or ((keyword? (first :: more)).or (reference? (first :: more))) with
  | some found =>
      obtain ⟨kind, rest⟩ := found
      obtain ⟨taken, isSign, same⟩ := exists_sign sign
      have plain : ∀ sign ∈ signs, sign ≠ [] ∧ ¬ Dangling sign := by decide
      obtain ⟨filled, settled⟩ := plain taken isSign
      exact same ▸ .token kind "" rest filled settled
  | none =>
      obtain ⟨noSymbol, -⟩ := Option.or_eq_none_iff.1 sign
      dsimp only
      split
      · next same =>
        obtain ⟨rfl, rfl⟩ := List.cons.inj same
        exact quotedWord_scans (by decide) _
      · next same =>
        obtain ⟨rfl, rfl⟩ := List.cons.inj same
        exact quotedWord_scans (by decide) _
      · refine bareWord_scans ?_
        by_cases backslash : first = '\\'
        · exact .inr backslash
        · exact .inl (isBare_of_symbol?_eq_none notBlank noSymbol backslash)

/-- Behind blanks there is a token, unless a last backslash escapes nothing. -/
theorem scan_cases (notBlank : Text.isBlank first = false) (more : List Char) :
    (∃ kind word taken rest, more = taken ++ rest ∧ ¬ Dangling (first :: taken) ∧
      scan (first :: more) = .ok (kind, word, rest)) ∨
    ∃ front, first :: more = front ++ ['\\'] ∧ ¬ Dangling front ∧
      scan (first :: more) = .error (.trailingBackslash, ['\\']) := by
  have reads := @scan_scans more first notBlank
  generalize scans : scan (first :: more) = result at reads
  generalize whole : first :: more = text at reads
  cases reads with
  | @token taken kind word rest filled settled =>
      obtain ⟨char, taken, rfl⟩ := List.exists_cons_of_ne_nil filled
      obtain ⟨rfl, rfl⟩ := List.cons.inj whole
      exact .inl ⟨kind, word, taken, rest, rfl, settled, rfl⟩
  | failure settled => exact .inr ⟨_, rfl, settled, rfl⟩

end Scanning

/-! ## All tokens -/

/-- The items of a stream from here to its end.  Nothing comes behind the end. -/
inductive Yields : Tokenizer → List (Except Error Token) → Prop where
  | done {stream later : Tokenizer} (ends : stream.next = (none, later))
      (stays : later.next = (none, later)) : Yields stream []
  | more {stream later : Tokenizer} {item : Except Error Token} {items : List (Except Error Token)}
      (next : stream.next = (some item, later)) (rest : Yields later items) :
      Yields stream (item :: items)

/-- The tokens that follow each other in a text with nothing but blanks in front of each, and what is left
behind the last.  The offset of a token is the length of all that comes before it, what was passed before the
text included. -/
inductive Cuts : List Char → List Char → List Token → List Char → Prop where
  | nil (passed left : List Char) : Cuts passed left [] left
  | cons {passed blanks taken rest left : List Char} {first : Char} {kind : TokenKind}
      {word : String} {tokens : List Token} (blank : ∀ char ∈ blanks, Text.isBlank char = true)
      (notBlank : Text.isBlank first = false)
      (scans : scan (first :: taken ++ rest) = .ok (kind, word, rest))
      (later : Cuts (passed ++ blanks ++ first :: taken) rest tokens left) :
      Cuts passed (blanks ++ (first :: taken ++ rest))
        (⟨kind, word, byteLength (passed ++ blanks)⟩ :: tokens) left

/-- How a pattern ends behind its last token: with nothing but blanks, or with a word whose last character is
a backslash that escapes nothing. -/
inductive Ends (pattern : String) : List Char → Option Error → Prop where
  | done {left : List Char} (blank : ∀ char ∈ left, Text.isBlank char = true) : Ends pattern left none
  | failure {front blanks more : List Char} {first : Char} (whole : pattern.toList = front ++ ['\\'])
      (blank : ∀ char ∈ blanks, Text.isBlank char = true) (notBlank : Text.isBlank first = false)
      (scans : scan (first :: more) = .error (.trailingBackslash, ['\\'])) :
      Ends pattern (blanks ++ first :: more) (some
        { cause := .malformedPattern pattern .trailingBackslash, position := .behind front })

namespace Cuts

variable {passed text left : List Char} {tokens : List Token}

/-- A token begins at a character that is not blank, behind what its offset measures. -/
theorem exists_start (cuts : Cuts passed text tokens left) {token : Token} (member : token ∈ tokens) :
    ∃ front first more, passed ++ text = passed ++ front ++ first :: more ∧
      Text.isBlank first = false ∧ token.offset = byteLength (passed ++ front) := by
  induction cuts with
  | nil => cases member
  | @cons passed blanks taken rest left first kind word tokens blank notBlank scans later ih =>
      rcases List.mem_cons.1 member with rfl | member
      · exact ⟨blanks, first, taken ++ rest, by simp, notBlank, rfl⟩
      · obtain ⟨front, first', more, same, notBlank', offset⟩ := ih member
        exact ⟨blanks ++ first :: taken ++ front, first', more, by simpa using same, notBlank',
          by simpa using offset⟩

/-- Every token takes a byte or more. -/
theorem pairwise (cuts : Cuts passed text tokens left) :
    (∀ token ∈ tokens, byteLength passed ≤ token.offset) ∧
      tokens.Pairwise (·.offset < ·.offset) := by
  induction cuts with
  | nil => exact ⟨nofun, .nil⟩
  | @cons passed blanks taken rest left first kind word tokens blank notBlank scans later ih =>
      obtain ⟨behind, increases⟩ := ih
      have ahead : ∀ token ∈ tokens, byteLength (passed ++ blanks) < token.offset := by
        intro token member
        have far := behind token member
        have takes := Char.utf8Size_pos first
        simp only [byteLength_append, byteLength_cons] at far ⊢
        omega
      refine ⟨?_, .cons ahead increases⟩
      have passes : byteLength passed ≤ byteLength (passed ++ blanks) := by simp
      rintro token (_ | ⟨_, member⟩)
      · exact passes
      · exact Nat.le_trans passes (Nat.le_of_lt (ahead token member))

end Cuts

section Streams

variable (pattern : String) {passed rest blanks more : List Char} {first : Char}

theorem next_eq_none (blank : ∀ char ∈ rest, Text.isBlank char = true) :
    Tokenizer.next { pattern, rest } = (none, { pattern, rest := [] }) := by
  simp only [Tokenizer.next, List.dropWhile_eq_nil_iff.2 blank]
  rfl

theorem next_eq_error {fault : PatternFault} {left : List Char}
    (blank : ∀ char ∈ blanks, Text.isBlank char = true) (notBlank : Text.isBlank first = false)
    (scans : scan (first :: more) = .error (fault, left)) :
    Tokenizer.next { pattern, rest := blanks ++ first :: more } =
      (some (.error { cause := .malformedPattern pattern fault
                      position := .ofRest pattern.toList left }),
        { pattern, rest := first :: more, hasFailed := true }) := by
  have stays : (blanks ++ first :: more).dropWhile Text.isBlank = first :: more := by
    rw [List.dropWhile_append_of_pos blank, List.dropWhile_cons_of_neg (by simp [notBlank])]
  simp only [Tokenizer.next, stays, scans]
  rfl

/-- A text is blank, or blank up to a first character that is not. -/
theorem blank_or_start (text : List Char) : (∀ char ∈ text, Text.isBlank char = true) ∨
    ∃ blanks first more, text = blanks ++ first :: more ∧
      (∀ char ∈ blanks, Text.isBlank char = true) ∧ Text.isBlank first = false := by
  induction text with
  | nil => exact .inl nofun
  | cons char text ih =>
      cases blank : Text.isBlank char with
      | false => exact .inr ⟨[], char, text, rfl, nofun, blank⟩
      | true =>
          rcases ih with all | ⟨blanks, first, more, rfl, all, notBlank⟩
          · exact .inl (List.forall_mem_cons.2 ⟨blank, all⟩)
          · exact .inr ⟨char :: blanks, first, more, rfl, List.forall_mem_cons.2 ⟨blank, all⟩, notBlank⟩

variable {pattern} in
/-- A budget of the characters that are left is enough to collect all tokens of a stream. -/
theorem collect_cuts (whole : pattern.toList = passed ++ rest) (settled : ¬ Dangling passed)
    {budget : Nat} (enough : rest.length ≤ budget) :
    ∃ tokens left failure, Cuts passed rest tokens left ∧ Ends pattern left failure ∧
      (failure.isSome ↔ Dangling pattern.toList) ∧
      Tokenizer.collect { pattern, rest } budget = (tokens, failure) ∧
      Yields { pattern, rest } (tokens.map .ok ++ failure.toList.map .error) := by
  induction budget generalizing passed rest with
  | zero =>
      obtain rfl := List.eq_nil_of_length_eq_zero (Nat.le_zero.1 enough)
      refine ⟨[], [], none, .nil .., .done nofun, ?_, rfl, ?_⟩
      · simpa [whole] using settled
      · exact .done (next_eq_none _ nofun) (next_eq_none _ nofun)
  | succ budget ih =>
      have dangles : Dangling pattern.toList ↔ Dangling rest := whole ▸ dangling_append settled
      rcases blank_or_start rest with blank | ⟨blanks, first, more, rfl, blank, notBlank⟩
      · have next := next_eq_none pattern blank
        refine ⟨[], rest, none, .nil .., .done blank, ?_, ?_, ?_⟩
        · simpa [dangles] using not_dangling_of_isBlank blank
        · simp only [Tokenizer.collect, next]
        · exact .done next (next_eq_none _ nofun)
      have clean := not_dangling_append settled (not_dangling_of_isBlank blank)
      rcases scan_cases notBlank more with
        ⟨kind, word, taken, rest, rfl, closed, scans⟩ | ⟨front, ends, closed, scans⟩
      · have next := next_eq_token pattern blank notBlank scans
        have offset : byteLength pattern.toList - byteLength (first :: (taken ++ rest)) =
            byteLength (passed ++ blanks) := by
          rw [whole, ← List.append_assoc, byteLength_append, Nat.add_sub_cancel]
        rw [offset] at next
        obtain ⟨tokens, left, failure, cuts, ends, fails, collects, yields⟩ :=
          @ih (passed ++ blanks ++ first :: taken) rest (by simp [whole])
            (not_dangling_append clean closed) (by simp at enough; omega)
        refine ⟨_, left, failure, .cons blank notBlank scans cuts, ends, fails, ?_, .more next yields⟩
        simp only [Tokenizer.collect, next, collects]
      · have next := next_eq_error pattern blank notBlank scans
        have whole' : pattern.toList = passed ++ blanks ++ front ++ ['\\'] := by
          rw [whole, ends, List.append_assoc, List.append_assoc]
        rw [whole', Position.ofRest_append] at next
        refine ⟨[], _, _, .nil .., .failure whole' blank notBlank scans, ?_, ?_,
          .more next (.done rfl rfl)⟩
        · have settled' := not_dangling_append clean closed
          rw [whole', dangling_concat]
          simpa using settled'
        · simp only [Tokenizer.collect, next]

end Streams

/-- The stream of a pattern ends.  Its tokens cut the pattern, from first characters that are not blank and at
offsets that increase, and behind them comes an error exactly if the pattern ends with an odd number of
backslashes. -/
theorem tokenize_cuts (pattern : String) :
    ∃ tokens left failure, tokenize pattern = (tokens, failure) ∧
      Yields (.start pattern) (tokens.map .ok ++ failure.toList.map .error) ∧
      Cuts [] pattern.toList tokens left ∧ Ends pattern left failure ∧
      (failure.isSome ↔ Dangling pattern.toList) ∧ tokens.Pairwise (·.offset < ·.offset) ∧
      ∀ token ∈ tokens, ∃ front first more, pattern.toList = front ++ first :: more ∧
        Text.isBlank first = false ∧ token.offset = byteLength front := by
  obtain ⟨tokens, left, failure, cuts, ends, fails, collects, yields⟩ :=
    collect_cuts (List.nil_append pattern.toList).symm not_dangling_nil (Nat.le_refl _)
  exact ⟨tokens, left, failure, collects, yields, cuts, ends, fails, cuts.pairwise.2,
    fun token member => cuts.exists_start member⟩

/-- An offset counts bytes. -/
example : tokenize "él \\" = ([⟨.string, "él", 0⟩], some
    { cause := .malformedPattern "él \\" .trailingBackslash, position := ⟨4, 1, 4⟩ }) := by
  decide +kernel

end Medley.Pattern
