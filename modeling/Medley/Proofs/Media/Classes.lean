import Medley.Proofs.Media.Likeness

/-!
# Patterns with classes of characters

A wildcard pattern is read part by part, and a class is one part of it whatever characters it has
(`Glob.reads_of_parse`).  A class stands for one character, though it is written with two brackets.  So a
pattern that matches a text also matches one with no more brackets than the pattern closes
(`Glob.Reads.exists_matches`).
-/

namespace Medley

/-- Whether a token is a class of characters. -/
def GlobToken.isClass : GlobToken → Bool
  | .oneOf _ | .noneOf _ => true
  | _ => false

theorem OpenClass.isClass_token (opened : OpenClass) : opened.token.isClass = true := by
  unfold token
  cases opened.isNegated <;> rfl

namespace Glob

/-- The parts of a wildcard pattern and the tokens that they are read as. -/
inductive Reads : List Char → List GlobToken → Prop where
  | nil : Reads [] []
  | char {char : Char} {rest : List Char} {tokens : List GlobToken} (plain : char ∉ ['?', '*', '['])
      (later : Reads rest tokens) : Reads (char :: rest) (.char char :: tokens)
  | any {rest : List Char} {tokens : List GlobToken} (later : Reads rest tokens) :
      Reads ('?' :: rest) (.anyChar :: tokens)
  | run {rest : List Char} {tokens : List GlobToken} (alone : rest.head? ≠ some '*')
      (later : Reads rest tokens) : Reads ('*' :: rest) (.anyRun :: tokens)
  | last : Reads ['*', '*'] [.anyComponents]
  | components {rest : List Char} {tokens : List GlobToken} (later : Reads rest tokens) :
      Reads ('*' :: '*' :: '/' :: rest) (.anyComponents :: tokens)
  | oneClass (members : List Char) {rest : List Char} {token : GlobToken} {tokens : List GlobToken}
      (isClass : token.isClass = true) (later : Reads rest tokens) :
      Reads ('[' :: (members ++ ']' :: rest)) (token :: tokens)

/-- What is still read of a pattern: its parts, behind the other members of a class that is open. -/
def ReadsFrom : Option OpenClass → List Char → List GlobToken → Prop
  | none, pattern, tokens => Reads pattern tokens
  | some _, pattern, tokens => ∃ members rest token others, pattern = members ++ ']' :: rest ∧
      tokens = token :: others ∧ token.isClass = true ∧ Reads rest others

section

variable {position : Nat} {previous : Option Char} {opened : Option OpenClass}
  {pattern text : List Char} {tokens : List GlobToken} {caseSensitive : Bool}

/-- A class that was opened with some members is read with the others. -/
theorem ReadsFrom.reads_class {opened : OpenClass} (first : List Char)
    (reads : ReadsFrom (some opened) pattern tokens) :
    Reads ('[' :: (first ++ pattern)) tokens := by
  obtain ⟨members, rest, token, others, rfl, rfl, isClass, later⟩ := reads
  rw [← List.append_assoc]
  exact .oneClass _ isClass later

theorem readsFrom_of_parse (parses : parseFrom position previous opened pattern = .ok tokens) :
    ReadsFrom opened pattern tokens := by
  fun_induction parseFrom position previous opened pattern generalizing tokens with
  | case1 =>
      cases parses
      exact .nil
  | case3 _ _ opened rest ih =>
      obtain ⟨others, below, rfl⟩ := Except.map_eq_ok.1 parses
      exact ⟨[], rest, _, others, rfl, rfl, opened.isClass_token, ih below⟩
  | case4 _ _ _ char rest _ ih =>
      obtain ⟨members, more, token, others, rfl, rfl, isClass, later⟩ := ih parses
      exact ⟨char :: members, more, token, others, rfl, rfl, isClass, later⟩
  | case5 _ _ _ ih =>
      obtain ⟨others, below, rfl⟩ := Except.map_eq_ok.1 parses
      exact .any (ih below)
  | case8 =>
      cases parses
      exact .last
  | case9 _ _ _ _ _ ih =>
      obtain ⟨others, below, rfl⟩ := Except.map_eq_ok.1 parses
      exact .components (ih below)
  | case11 _ _ rest _ other ih =>
      obtain ⟨others, below, rfl⟩ := Except.map_eq_ok.1 parses
      refine .run (fun star => ?_) (ih below)
      obtain ⟨more, rfl⟩ := List.head?_eq_some_iff.1 star
      exact other more rfl
  | case12 _ _ first _ ih => exact (ih parses).reads_class ['!', first]
  | case14 _ _ first _ _ _ ih => exact (ih parses).reads_class [first]
  | case16 _ _ char rest any _ _ star _ begun bare ih =>
      obtain ⟨others, below, rfl⟩ := Except.map_eq_ok.1 parses
      have bracket : char ≠ '[' := fun opens => by
        cases rest with
        | nil => exact bare opens rfl
        | cons next more => exact begun next more opens rfl
      refine .char ?_ (ih below)
      simp only [List.mem_cons, List.not_mem_nil, or_false, not_or]
      exact ⟨any, star, bracket⟩
  | _ => cases parses

/-- A pattern is read part by part. -/
theorem reads_of_parse (parses : parseFrom position previous none pattern = .ok tokens) :
    Reads pattern tokens :=
  readsFrom_of_parse parses

/-- A class stands for one character. -/
theorem precedes_class {token : GlobToken} (isClass : token.isClass = true) {holds : List Char → Prop} :
    token.Precedes caseSensitive holds text ↔
      ∃ first rest, text = first :: rest ∧ token.accepts caseSensitive first = true ∧ holds rest := by
  cases token with
  | oneOf | noneOf => exact Iff.rfl
  | _ => cases isClass

/-- Whether a character opens or closes a class. -/
def isBracket (char : Char) : Bool := char == '[' || char == ']'

/-- A pattern that opens a class has more brackets than it closes. -/
theorem count_lt_of_opens (opens : '[' ∈ pattern) : pattern.count ']' < pattern.countP isBracket := by
  have closed (part : List Char) : part.count ']' ≤ part.countP isBracket :=
    List.countP_mono_left fun char _ closes => Bool.or_eq_true_iff.2 (.inr closes)
  obtain ⟨before, after, rfl⟩ := List.append_of_mem opens
  rw [List.count_append, List.countP_append, List.count_cons_of_ne (by decide),
    List.countP_cons_of_pos (by decide)]
  exact Nat.add_lt_add_of_le_of_lt (closed before) (Nat.lt_succ_of_le (closed after))

/-- A pattern that matches a text matches one that has no more brackets than the pattern closes. -/
theorem Reads.exists_matches (reads : Reads pattern tokens) (found : Matches caseSensitive tokens text) :
    ∃ least, Matches caseSensitive tokens least ∧ least.countP isBracket ≤ pattern.count ']' := by
  induction reads generalizing text with
  | nil => exact ⟨[], rfl, Nat.le_refl _⟩
  | @char char rest tokens plain later ih =>
      obtain ⟨_, _, -, -, found⟩ := found
      obtain ⟨least, found, fewer⟩ := ih found
      refine ⟨char :: least, .of_accepts (by simp [GlobToken.accepts, sameChar]) found, ?_⟩
      simp only [List.mem_cons, not_or] at plain
      by_cases closes : char = ']'
      · simpa [closes, isBracket] using fewer
      · rw [List.countP_cons_of_neg (by simp [isBracket, plain, closes]), List.count_cons_of_ne closes]
        exact fewer
  | any later ih =>
      obtain ⟨_, _, -, -, found⟩ := found
      obtain ⟨least, found, fewer⟩ := ih found
      exact ⟨'z' :: least, .of_accepts rfl found, by simpa [isBracket] using fewer⟩
  | run alone later ih =>
      obtain ⟨before, after, -, found⟩ := found
      obtain ⟨least, found, fewer⟩ := ih found
      exact ⟨least, ⟨[], least, rfl, found⟩, by simpa using fewer⟩
  | last => exact ⟨[], .inl rfl, by simp⟩
  | components later ih =>
      obtain ⟨before, after, -, -, found⟩ := precedes_anyComponents.1 found
      obtain ⟨least, found, fewer⟩ := ih found
      exact ⟨least, .inl found, by simpa using fewer⟩
  | @oneClass members rest token tokens isClass later ih =>
      -- The character that the class accepts may be a bracket, but the class is closed by one.
      obtain ⟨first, _, -, accepts, found⟩ := (precedes_class isClass).1 found
      obtain ⟨least, found, fewer⟩ := ih found
      refine ⟨first :: least, .of_accepts accepts found, ?_⟩
      have closed : rest.count ']' + 1 ≤ ('[' :: (members ++ ']' :: rest)).count ']' := by simp
      rw [List.countP_cons]
      split <;> omega

end

end Glob

end Medley
