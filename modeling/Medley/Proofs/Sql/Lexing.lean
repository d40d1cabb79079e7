import Medley.Query.Predicate

/-!
# Tokens of SQL

How a database splits a text into tokens.  Characters are read from left to right: a token goes on as long
as the next character can belong to it.  A quote inside a quoted text is written twice, so what looks like
the end of one is known to be the end only from the character behind it.

A text `Reads` as certain tokens if it adds just these, whatever stands before it and for all that stands
behind it and starts with a character of a certain kind.  Texts one after the other then read as their
tokens one after the other (`Reads.append`), and a text in quotes reads as one token, whatever the text is
(`reads_quoted`).
-/

namespace Medley.Sql

/-- A token of SQL. -/
inductive Token where
  /-- A keyword or a bare name. -/
  | word (text : String)
  /-- The digits of an integer. -/
  | number (digits : String)
  /-- A text in single quotes. -/
  | literal (text : String)
  /-- A name in double quotes. -/
  | name (text : String)
  /-- An operator or a punctuation mark. -/
  | sign (text : String)
  /-- What follows a quote that nothing closes. -/
  | unclosed
  deriving DecidableEq, Repr

/-- What has been read of a token, or that none has been started. -/
inductive Pending where
  | gap
  | word (read : List Char)
  | number (read : List Char)
  | quoted (quote : Char) (read : List Char)
  /-- A quoted text and a quote behind it, which closes the text unless another one follows. -/
  | closed (quote : Char) (read : List Char)
  | sign (first : Char)
  | pair (first second : Char)
  /-- A remark up to the end of the line. -/
  | remark
  /-- A remark up to a star and a slash, and whether it has come to a star. -/
  | block (star : Bool)
  deriving DecidableEq, Repr

/-- Whether a word can start with a character. -/
def isWordStart (char : Char) : Bool := char.isAlpha || char == '_' || decide (128 ≤ char.toNat)

/-- Whether a word can go on with a character. -/
def isWordPart (char : Char) : Bool := isWordStart char || char.isDigit || char == '$'

/-- The operators that two characters make. -/
def pairs : List (Char × Char) :=
  [('<', '='), ('<', '>'), ('>', '='), ('<', '<'), ('>', '>'), ('!', '='), ('=', '='), ('|', '|')]

/-- What a character starts. -/
def start (char : Char) : Pending :=
  if isWordStart char then .word [char]
  else if char.isDigit then .number [char]
  else if char = '\'' ∨ char = '"' then .quoted char []
  else if char.isWhitespace then .gap
  else .sign char

namespace Pending

/-- What has been read together with the next character, unless that starts something new. -/
def extend? : Pending → Char → Option Pending
  | gap, _ => none
  | word read, char => if isWordPart char then some (.word (read ++ [char])) else none
  | number read, char => if char.isDigit then some (.number (read ++ [char])) else none
  | quoted quote read, char =>
      if char = quote then some (.closed quote read) else some (.quoted quote (read ++ [char]))
  | closed quote read, char => if char = quote then some (.quoted quote (read ++ [char])) else none
  | sign first, char =>
      if first = '-' ∧ char = '-' then some .remark
      else if first = '/' ∧ char = '*' then some (.block false)
      else if (first, char) ∈ pairs then some (.pair first char)
      else none
  | pair _ _, _ => none
  | remark, char => if char = '\n' then some .gap else some .remark
  | block star, char => if star ∧ char = '/' then some .gap else some (.block (char == '*'))

/-- The token that has been read if nothing more belongs to it. -/
def tokens : Pending → List Token
  | gap => []
  | word read => [.word (String.ofList read)]
  | number read => [.number (String.ofList read)]
  | quoted _ _ => [.unclosed]
  | closed quote read =>
      [if quote = '"' then .name (String.ofList read) else .literal (String.ofList read)]
  | sign first => [.sign (String.ofList [first])]
  | pair first second => [.sign (String.ofList [first, second])]
  | remark => []
  | block _ => []

end Pending

/-- The tokens that a text completes, and what is pending at its end. -/
def scan : Pending → List Char → List Token × Pending
  | pending, [] => ([], pending)
  | pending, char :: rest =>
      match pending.extend? char with
      | some more => scan more rest
      | none => ((pending.tokens ++ (scan (start char) rest).1), (scan (start char) rest).2)

/-- The tokens of a text. -/
def lex (text : String) : List Token :=
  let (tokens, last) := scan .gap text.toList
  tokens ++ last.tokens

section Scanning

theorem scan_append (pending : Pending) (left right : List Char) :
    scan pending (left ++ right) =
      ((scan pending left).1 ++ (scan (scan pending left).2 right).1,
        (scan (scan pending left).2 right).2) := by
  induction left generalizing pending with
  | nil => rfl
  | cons char rest ih =>
      rw [List.cons_append, scan, scan]
      cases pending.extend? char with
      | some more => exact ih more
      | none => simp only [ih, List.append_assoc]

/-- A token ends before a text that does not extend it. -/
theorem scan_of_ends {pending : Pending} {text : List Char}
    (ends : ∀ char ∈ text.head?, pending.extend? char = none) :
    (scan pending text).1 ++ (scan pending text).2.tokens =
      pending.tokens ++ ((scan .gap text).1 ++ (scan .gap text).2.tokens) := by
  cases text with
  | nil => exact (List.append_nil _).symm
  | cons char rest =>
      have stops : pending.extend? char = none := ends char rfl
      have fresh : Pending.gap.extend? char = none := rfl
      rw [scan, scan, stops, fresh]
      simp only [Pending.tokens, List.nil_append, List.append_assoc]

theorem scan_word {read text : List Char} (parts : ∀ char ∈ text, isWordPart char = true) :
    scan (.word read) text = ([], .word (read ++ text)) := by
  induction text generalizing read with
  | nil => rw [scan, List.append_nil]
  | cons char rest ih =>
      rw [scan, Pending.extend?, if_pos (parts char (.head _))]
      simp only [ih fun other member => parts other (.tail _ member), List.append_assoc,
        List.singleton_append]

theorem scan_number {read text : List Char} (digits : ∀ char ∈ text, char.isDigit = true) :
    scan (.number read) text = ([], .number (read ++ text)) := by
  induction text generalizing read with
  | nil => rw [scan, List.append_nil]
  | cons char rest ih =>
      rw [scan, Pending.extend?, if_pos (digits char (.head _))]
      simp only [ih fun other member => digits other (.tail _ member), List.append_assoc,
        List.singleton_append]

/-- A quote that is written twice leaves a quoted text open. -/
theorem scan_quoted (quote : Char) (read text : List Char) :
    scan (.quoted quote read)
        (text.flatMap (fun char => if char = quote then [quote, quote] else [char]) ++ [quote]) =
      ([], .closed quote (read ++ text)) := by
  induction text generalizing read with
  | nil => simp [scan, Pending.extend?]
  | cons char rest ih =>
      have goesOn := ih (read ++ [char])
      rw [List.append_assoc, List.singleton_append] at goesOn
      rw [List.flatMap_cons, List.append_assoc]
      by_cases isQuote : char = quote
      · subst isQuote
        simpa [scan, Pending.extend?] using goesOn
      · simpa [scan, Pending.extend?, isQuote] using goesOn

end Scanning

/-! ## Pieces of text -/

/-- Any character. -/
def anything : Char → Bool := fun _ => true

/-- Whether a character ends every word, number and quoted text before it. -/
def isBreak (char : Char) : Bool := !isWordPart char && char != '\'' && char != '"'

/-- Whether a literal or a column can start with a character. -/
def startsOperand (char : Char) : Bool := char == '\'' || char == '-' || isWordPart char

/-- Whether a text starts with a character of some kind and adds just some tokens, as long as a character
of some other kind stands behind it. -/
structure Reads (starts ends : Char → Bool) (text : String) (tokens : List Token) : Prop where
  head : ∃ char rest, text.toList = char :: rest ∧ starts char = true
  lex_append : ∀ rest : String, (∀ char ∈ rest.toList.head?, ends char = true) →
    lex (text ++ rest) = tokens ++ lex rest

namespace Reads

variable {starts ends starts' ends' : Char → Bool} {text left right : String}
  {tokens lefts rights : List Token}

theorem lex (reads : Reads starts ends text tokens) : lex text = tokens := by
  have alone := reads.lex_append "" (fun _ member => nomatch member)
  rwa [String.append_empty, show Sql.lex "" = [] from rfl, List.append_nil] at alone

theorem mono (reads : Reads starts ends text tokens)
    (startsMore : ∀ char, starts char = true → starts' char = true)
    (endsLess : ∀ char, ends' char = true → ends char = true) : Reads starts' ends' text tokens where
  head := by
    obtain ⟨char, rest, here, holds⟩ := reads.head
    exact ⟨char, rest, here, startsMore char holds⟩
  lex_append := fun rest before =>
    reads.lex_append rest fun char member => endsLess char (before char member)

theorem anywhere (reads : Reads starts ends text tokens) : Reads anything ends text tokens :=
  reads.mono (fun _ _ => rfl) fun _ holds => holds

/-- A text is read as it is scanned on its own. -/
theorem of_scan {early : List Token} {last : Pending} (scans : scan .gap text.toList = (early, last))
    (head : text.toList.head?.any starts = true)
    (stops : ∀ char, ends char = true → last.extend? char = none) :
    Reads starts ends text (early ++ last.tokens) where
  head := by
    obtain ⟨char, first, holds⟩ := (Option.any_eq_true ..).1 head
    obtain ⟨rest, here⟩ := List.head?_eq_some_iff.1 first
    exact ⟨char, rest, here, holds⟩
  lex_append := by
    intro rest before
    have ends : ∀ char ∈ rest.toList.head?, last.extend? char = none :=
      fun char member => stops char (before char member)
    have behind := scan_of_ends ends
    unfold Sql.lex
    simp only [String.toList_append, scan_append, scans, List.append_assoc]
    rw [behind]

theorem append (first : Reads starts ends left lefts) (second : Reads ends ends' right rights) :
    Reads starts ends' (left ++ right) (lefts ++ rights) where
  head := by
    obtain ⟨char, rest, here, holds⟩ := first.head
    exact ⟨char, rest ++ right.toList, by rw [String.toList_append, here, List.cons_append], holds⟩
  lex_append := by
    intro rest before
    obtain ⟨char, others, here, holds⟩ := second.head
    have between : ∀ next ∈ (right ++ rest).toList.head?, ends next = true := by
      intro next member
      rw [String.toList_append, here] at member
      cases member
      exact holds
    rw [String.append_assoc, first.lex_append _ between, second.lex_append rest before,
      List.append_assoc]

end Reads

/-- Whether a text is empty or reads as some tokens behind any other text. -/
def Continues (text : String) (tokens : List Token) : Prop :=
  text = "" ∧ tokens = [] ∨ Reads isBreak isBreak text tokens

theorem Reads.continued {starts : Char → Bool} {left right : String} {lefts rights : List Token}
    (first : Reads starts isBreak left lefts) (second : Continues right rights) :
    Reads starts isBreak (left ++ right) (lefts ++ rights) := by
  rcases second with ⟨rfl, rfl⟩ | second
  · simpa using first
  · exact first.append second

theorem Continues.append {left right : String} {lefts rights : List Token}
    (first : Continues left lefts) (second : Continues right rights) :
    Continues (left ++ right) (lefts ++ rights) := by
  rcases first with ⟨rfl, rfl⟩ | first
  · simpa using second
  · exact .inr (first.continued second)

/-- A text in quotes, a quote inside written twice. -/
def quoted (quote : Char) (text : String) : String :=
  String.ofList (quote :: (text.toList.flatMap (fun char =>
    if char = quote then [quote, quote] else [char]) ++ [quote]))

theorem isBreak_ne {char : Char} (breaks : isBreak char = true) :
    isWordPart char = false ∧ char.isDigit = false ∧ char ≠ '\'' ∧ char ≠ '"' := by
  simp only [isBreak, isWordPart, Bool.and_eq_true, Bool.not_eq_true', Bool.or_eq_false_iff,
    bne_iff_ne] at breaks ⊢
  exact ⟨breaks.1.1, breaks.1.1.1.2, breaks.1.2, breaks.2⟩

section Breaks

variable {char : Char} {read : List Char}

theorem extend?_word (breaks : isBreak char = true) : (Pending.word read).extend? char = none :=
  if_neg (by simp [(isBreak_ne breaks).1])

theorem extend?_number (breaks : isBreak char = true) : (Pending.number read).extend? char = none :=
  if_neg (by simp [(isBreak_ne breaks).2.1])

theorem extend?_closed {quote : Char} (isQuote : quote = '\'' ∨ quote = '"')
    (breaks : isBreak char = true) : (Pending.closed quote read).extend? char = none := by
  refine if_neg ?_
  rcases isQuote with rfl | rfl
  · exact (isBreak_ne breaks).2.2.1
  · exact (isBreak_ne breaks).2.2.2

end Breaks

/-- A text in quotes is one token, whatever the text is. -/
theorem reads_quoted {quote : Char} (isQuote : quote = '\'' ∨ quote = '"') (text : String) :
    Reads (fun char => char == quote) isBreak (quoted quote text)
      [if quote = '"' then .name text else .literal text] := by
  have opens : start quote = .quoted quote [] := by rcases isQuote with rfl | rfl <;> rfl
  have scans : scan .gap (quoted quote text).toList = ([], .closed quote text.toList) := by
    rw [quoted, String.toList_ofList, scan, show Pending.gap.extend? quote = none from rfl, opens,
      scan_quoted]
    rfl
  have reads : Reads (fun char => char == quote) isBreak (quoted quote text) _ :=
    .of_scan scans (by simp [quoted]) fun _ => extend?_closed isQuote
  simpa [Pending.tokens] using reads

theorem reads_word {text : String} {first : Char} {rest : List Char}
    (made : text.toList = first :: rest) (starts : isWordStart first = true)
    (parts : ∀ char ∈ rest, isWordPart char = true) :
    Reads isWordStart isBreak text [.word text] := by
  have scans : scan .gap text.toList = ([], .word text.toList) := by
    rw [made, scan, show Pending.gap.extend? first = none from rfl, start, if_pos starts,
      scan_word parts]
    rfl
  have reads : Reads isWordStart isBreak text _ :=
    .of_scan scans (by simp [made, starts]) fun _ => extend?_word
  simpa [Pending.tokens] using reads

theorem isWordStart_of_isDigit {char : Char} (digit : char.isDigit = true) :
    isWordStart char = false := by
  have bounds : 48 ≤ char.toNat ∧ char.toNat ≤ 57 := by
    simpa [Char.isDigit, UInt32.le_iff_toNat_le] using digit
  have letter : char.isAlpha = false := by
    have upper : char.isUpper = decide (65 ≤ char.val ∧ char.val ≤ 90) := rfl
    have lower : char.isLower = (decide (97 ≤ char.val) && decide (char.val ≤ 122)) := rfl
    have alpha : char.isAlpha = (char.isUpper || char.isLower) := rfl
    have outside : ¬ (65 ≤ char.toNat ∧ char.toNat ≤ 90) ∧ ¬ (97 ≤ char.toNat ∧ char.toNat ≤ 122) := by
      omega
    simpa [alpha, upper, lower, UInt32.le_iff_toNat_le] using outside
  have ascii : char.toNat < 128 := by omega
  have underscore : char ≠ '_' := by
    rintro rfl
    cases digit
  simp [isWordStart, letter, underscore, ascii]

theorem reads_digits {text : String} {first : Char} {rest : List Char}
    (made : text.toList = first :: rest) (digits : ∀ char ∈ first :: rest, char.isDigit = true) :
    Reads Char.isDigit isBreak text [.number text] := by
  have digit := digits first (.head _)
  have scans : scan .gap text.toList = ([], .number text.toList) := by
    rw [made, scan, show Pending.gap.extend? first = none from rfl, start,
      if_neg (by simp [isWordStart_of_isDigit digit]), if_pos digit,
      scan_number fun char member => digits char (.tail _ member)]
    rfl
  have reads : Reads Char.isDigit isBreak text _ :=
    .of_scan scans (by simp [made, digit]) fun _ => extend?_number
  simpa [Pending.tokens] using reads

/-- A fixed text is read as it is read on its own. -/
theorem reads_fixed {starts ends : Char → Bool} {text : String} {tokens : List Token}
    (lexes : lex text = tokens) (head : text.toList.head?.any starts = true)
    (stops : ∀ char, ends char = true → (scan .gap text.toList).2.extend? char = none) :
    Reads starts ends text tokens :=
  lexes ▸ Reads.of_scan (Prod.eta _).symm head stops

/-- Whether a text is one name, bare or in double quotes, wherever a break follows it. -/
def IsName (text : String) : Prop :=
  ∃ name, Reads anything isBreak text [.word name] ∨ Reads anything isBreak text [.name name]

theorem IsName.reads {text : String} (isName : IsName text) :
    Reads anything isBreak text (lex text) := by
  obtain ⟨name, bare | quoted⟩ := isName
  · exact bare.lex.symm ▸ bare
  · exact quoted.lex.symm ▸ quoted

theorem IsName.single {text : String} (isName : IsName text) : ∃ name, lex text = [name] := by
  obtain ⟨name, bare | quoted⟩ := isName
  · exact ⟨.word name, bare.lex⟩
  · exact ⟨.name name, quoted.lex⟩

/-- A word is a name. -/
theorem isName_of_word {text : String} (starts : text.toList.head?.any isWordStart = true)
    (parts : text.toList.all isWordPart = true) : IsName text := by
  obtain ⟨first, isFirst, starts⟩ := (Option.any_eq_true ..).1 starts
  obtain ⟨rest, made⟩ := List.head?_eq_some_iff.1 isFirst
  have behind : ∀ char ∈ rest, isWordPart char = true :=
    fun char member => List.all_eq_true.1 parts char (made ▸ .tail _ member)
  exact ⟨text, .inl (reads_word made starts behind).anywhere⟩

/-- Any text is a name once it is quoted. -/
theorem isName_quoted (text : String) : IsName (quoted '"' text) :=
  ⟨text, .inr (reads_quoted (.inr rfl) text).anywhere⟩

end Medley.Sql
