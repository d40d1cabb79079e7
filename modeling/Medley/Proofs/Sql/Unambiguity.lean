import Medley.Proofs.Meaning.Agreement
import Medley.Proofs.Sql.Columns
import Medley.Proofs.Sql.Rendering

/-!
# Conditions say what they test

The tokens of a condition determine where it ends and, with the aliases of its query, what it is true of
(`Predicate.equivalent_of_tokens`).  What is not written does not matter: which connective joins a single
operand, and whether upper and lower case differ where nothing folds them.  So two queries with the same
aliases and the same condition select by conditions that evaluate alike
(`State.evaluate_eq_of_conditions`).
-/

namespace Medley

open Sql

namespace Sql

theorem writeNat_injective : Function.Injective Text.writeNat := by
  intro left right same
  have digits : Text.writeDigits left = Text.writeDigits right := String.ofList_injective same
  have read := congrArg Text.readDigits? digits
  simpa using read

theorem aliasName_injective : Function.Injective aliasName := by
  intro left right same
  have spelled : 'm' :: (Text.writeNat left).toList = 'm' :: (Text.writeNat right).toList := by
    simpa [aliasName] using congrArg String.toList same
  exact writeNat_injective (String.toList_inj.1 (List.cons.inj spelled).2)

theorem integerTokens_append {left right : Int} {rest rest' : List Token}
    (same : integerTokens left ++ rest = integerTokens right ++ rest') : left = right ∧ rest = rest' := by
  cases left <;> cases right <;>
    simp only [integerTokens, List.cons_append, List.nil_append, List.cons.injEq, Token.number.injEq,
      reduceCtorEq, false_and, true_and] at same
  · exact ⟨congrArg Int.ofNat (writeNat_injective same.1), same.2⟩
  · exact ⟨congrArg Int.negSucc (Nat.succ.inj (writeNat_injective same.1)), same.2⟩

/-- Items with separators between them can be told apart from what follows them if each item can, and the
separator shows unless there is one item only. -/
theorem intercalate_append {ι : Type} {related : ι → ι → Prop} {tokens : ι → List Token}
    {separator separator' close : Token} (other : separator ≠ close) (other' : separator' ≠ close)
    {items items' : List ι} (some : items ≠ []) (some' : items' ≠ [])
    (each : ∀ item ∈ items, ∀ item' ∈ items', ∀ rest rest',
      tokens item ++ rest = tokens item' ++ rest' → related item item' ∧ rest = rest')
    {rest rest' : List Token}
    (same : [separator].intercalate (items.map tokens) ++ close :: rest =
      [separator'].intercalate (items'.map tokens) ++ close :: rest') :
    List.Forall₂ related items items' ∧ rest = rest' ∧
      (separator = separator' ∨ ∃ item, items = [item]) := by
  induction items generalizing items' with
  | nil => exact absurd rfl some
  | cons item others ih =>
      obtain ⟨item', others', rfl⟩ := List.exists_cons_of_ne_nil some'
      have head := each item (.head _) item' (.head _)
      cases others with
      | nil =>
          cases others' with
          | nil =>
              simp only [List.map_cons, List.map_nil, List.intercalate_singleton] at same
              obtain ⟨first, later⟩ := head _ _ same
              exact ⟨.cons first .nil, (List.cons.inj later).2, .inr ⟨item, rfl⟩⟩
          | cons next' more' =>
              simp only [List.map_cons, List.map_nil, List.intercalate_singleton,
                List.intercalate_cons_cons, List.append_assoc] at same
              exact absurd (List.cons.inj (head _ _ same).2).1.symm other'
      | cons next more =>
          cases others' with
          | nil =>
              simp only [List.map_cons, List.map_nil, List.intercalate_singleton,
                List.intercalate_cons_cons, List.append_assoc] at same
              exact absurd (List.cons.inj (head _ _ same).2).1 other
          | cons next' more' =>
              simp only [List.map_cons, List.intercalate_cons_cons, List.append_assoc] at same
              obtain ⟨first, later⟩ := head _ _ same
              obtain ⟨separators, later⟩ := List.cons.inj later
              obtain ⟨alike, ends, -⟩ := ih (List.cons_ne_nil _ _) (List.cons_ne_nil next' more')
                (fun item member item' member' => each item (.tail _ member) item' (.tail _ member'))
                (by simpa using later)
              exact ⟨.cons first alike, ends, .inl separators⟩

theorem ids_append {ids ids' : List Int64} (some : ids ≠ []) (some' : ids' ≠ [])
    {rest rest' : List Token}
    (same : [.sign ","].intercalate (ids.map fun id => integerTokens id.toInt) ++ .sign ")" :: rest =
      [.sign ","].intercalate (ids'.map fun id => integerTokens id.toInt) ++ .sign ")" :: rest') :
    ids = ids' ∧ rest = rest' := by
  have each : ∀ id ∈ ids, ∀ id' ∈ ids', ∀ rest rest' : List Token,
      integerTokens id.toInt ++ rest = integerTokens id'.toInt ++ rest' → id = id' ∧ rest = rest' :=
    fun _ _ _ _ _ _ same => (integerTokens_append same).imp_left Int64.toInt_inj.1
  obtain ⟨alike, ends, -⟩ := intercalate_append (by simp) (by simp) some some' each same
  rw [List.forall₂_eq_eq_eq] at alike
  exact ⟨alike, ends⟩

end Sql

theorem Literal.tokens_append {left right : Literal} {rest rest' : List Token}
    (same : left.tokens ++ rest = right.tokens ++ rest') : left = right ∧ rest = rest' := by
  cases left with
  | integer value =>
      cases right with
      | integer value' =>
          obtain ⟨same, ends⟩ := integerTokens_append same
          exact ⟨congrArg integer (Int64.toInt_inj.1 same), ends⟩
      | text value' => cases h : value.toInt <;> simp [tokens, integerTokens, h] at same
  | text value =>
      cases right with
      | integer value' => cases h : value'.toInt <;> simp [tokens, integerTokens, h] at same
      | text value' => simpa [tokens] using same

theorem Comparison.token_injective : Function.Injective Comparison.token := by
  intro left right same
  cases left <;> cases right <;> first | rfl | simp [token] at same

theorem Column.tokens_append {left right : Column} {rest rest' : List Token}
    (same : left.tokens ++ rest = right.tokens ++ rest') :
    left.tokens = right.tokens ∧ rest = rest' := by
  have length : left.tokens.length = right.tokens.length := by cases left <;> cases right <;> rfl
  exact List.append_inj same length

/-- Columns of the same aliases are told apart by their numbers. -/
theorem AliasTable.Numbered.eq_of_tokens {table : AliasTable} (numbered : table.Numbered)
    {left right : Column} (member : left ∈ table.columns) (member' : right ∈ table.columns)
    (same : left.tokens = right.tokens) : left = right := by
  cases left with
  | id =>
      cases right with
      | id => rfl
      | value number field => simp [Column.tokens] at same
  | value number field =>
      cases right with
      | id => simp [Column.tokens] at same
      | value number' field' =>
          obtain rfl : number = number' := by
            simpa [Column.tokens, aliasName_injective.eq_iff] using same
          rw [numbered.eq_of_number member member']

/-- Whether a comparison tells upper and lower case apart matters only where that is written. -/
theorem Value.compare_of_foldsCase {test : Comparison} {literal : Literal}
    {caseSensitive caseSensitive' : Bool}
    (same : foldsCase test literal caseSensitive = foldsCase test literal caseSensitive')
    (value : Value) :
    value.compare test literal caseSensitive = value.compare test literal caseSensitive' := by
  cases test with
  | equals | notEqual =>
      cases literal with
      | integer number => rfl
      | text wanted =>
          have same : (!caseSensitive) = !caseSensitive' := same
          rw [Bool.not_inj_iff.1 same]
  | _ => rfl

namespace Predicate

section Beginnings

/-- The first token of a condition. -/
def opening : Predicate → Token
  | always => .number "1"
  | never => .number "0"
  | not _ => .word "NOT"
  | inIds _ => .word "m0"
  | all _ | any _ | compare .. | has _ => .sign "("

theorem tokens_eq_cons (predicate : Predicate) : ∃ more, predicate.tokens = predicate.opening :: more := by
  cases predicate <;> rw [tokens] <;> exact ⟨_, rfl⟩

theorem opening_eq {left right : Predicate} {rest rest' : List Token}
    (same : left.tokens ++ rest = right.tokens ++ rest') : left.opening = right.opening := by
  obtain ⟨more, opens⟩ := left.tokens_eq_cons
  obtain ⟨more', opens'⟩ := right.tokens_eq_cons
  rw [opens, opens'] at same
  exact (List.cons.inj same).1

/-- Whether what stands behind a bracket is the beginning of a test: a column that no list of ids
follows, or one in brackets for which case is folded. -/
def startsTest : List Token → Bool
  | .word _ :: .sign "." :: .word _ :: token :: _ => token != .word "IN"
  | .sign "(" :: .word _ :: .sign "." :: .word _ :: .word "COLLATE" :: _ => true
  | _ => false

theorem tokens_all (operands : List Predicate) (rest : List Token) :
    (all operands).tokens ++ rest = .sign "(" ::
      ([.word "AND"].intercalate (operands.map tokens) ++ .sign ")" :: rest) := by
  simp [tokens, tokensEach_eq_map]

theorem tokens_any (operands : List Predicate) (rest : List Token) :
    (any operands).tokens ++ rest = .sign "(" ::
      ([.word "OR"].intercalate (operands.map tokens) ++ .sign ")" :: rest) := by
  simp [tokens, tokensEach_eq_map]

theorem tokens_inIds (ids : List Int64) (rest : List Token) :
    (inIds ids).tokens ++ rest = (Column.id.tokens ++ [.word "IN", .sign "("]) ++
      ([.sign ","].intercalate (ids.map fun id => integerTokens id.toInt) ++ .sign ")" :: rest) := by
  simp [tokens]

/-- A bracket in front of a condition does not make it a test for which case is folded. -/
theorem startsTest_open (predicate : Predicate) (rest : List Token) :
    startsTest (.sign "(" :: (predicate.tokens ++ rest)) = false := by
  cases predicate with
  | compare column test literal caseSensitive =>
      simp only [tokens, testTokens]
      cases foldsCase test literal caseSensitive <;> cases column <;> cases test <;> rfl
  | has column => cases column <;> rfl
  | not operand =>
      obtain ⟨more, opens⟩ := operand.tokens_eq_cons
      rw [tokens, opens]
      cases operand <;> rfl
  | _ => rfl

theorem exists_intercalate {separator : Token} {operands : List Predicate} (some : operands ≠ [])
    (rest : List Token) : ∃ operand ∈ operands, ∃ more,
      [separator].intercalate (operands.map tokens) ++ rest = operand.tokens ++ more := by
  obtain ⟨operand, others, rfl⟩ := List.exists_cons_of_ne_nil some
  refine ⟨operand, .head _, ?_⟩
  cases others with
  | nil => exact ⟨rest, by simp⟩
  | cons next others =>
      exact ⟨_, by rw [List.map_cons, List.map_cons, List.intercalate_cons_cons, List.append_assoc,
        List.append_assoc]⟩

/-- No condition starts like a test behind its bracket. -/
theorem startsTest_tokens (predicate : Predicate) (rest : List Token) :
    startsTest (predicate.tokens ++ rest) = false := by
  have joined : ∀ (separator : Token) (operands : List Predicate), startsTest (.sign "(" ::
      ([separator].intercalate (operands.map tokens) ++ .sign ")" :: rest)) = false := by
    intro separator operands
    by_cases none : operands = []
    · subst none
      rfl
    · obtain ⟨operand, -, more, starts⟩ := exists_intercalate none (.sign ")" :: rest)
      rw [starts]
      exact startsTest_open operand more
  cases predicate with
  | all operands => exact tokens_all operands rest ▸ joined _ operands
  | any operands => exact tokens_any operands rest ▸ joined _ operands
  | compare column test literal caseSensitive =>
      simp only [tokens, testTokens]
      cases foldsCase test literal caseSensitive <;> cases column <;> cases test <;> rfl
  | has column => cases column <;> rfl
  | not operand =>
      obtain ⟨more, opens⟩ := operand.tokens_eq_cons
      rw [tokens, opens]
      cases operand <;> rfl
  | _ => rfl

/-- What stands in the brackets of operands is not what stands in those of a test. -/
theorem intercalate_ne {separator : Token} {operands : List Predicate} (some : operands ≠ [])
    {rest inside : List Token} (test : startsTest inside = true) :
    [separator].intercalate (operands.map tokens) ++ rest ≠ inside := by
  rintro rfl
  obtain ⟨operand, -, more, starts⟩ := exists_intercalate some rest
  rw [starts, startsTest_tokens operand more] at test
  cases test

theorem startsTest_compare (column : Column) (test : Comparison) (literal : Literal)
    (caseSensitive : Bool) (rest : List Token) :
    ∃ inside, (compare column test literal caseSensitive).tokens ++ rest = .sign "(" :: inside ∧
      startsTest inside = true := by
  simp only [tokens, testTokens]
  cases foldsCase test literal caseSensitive <;> cases column <;> cases test <;> exact ⟨_, rfl, rfl⟩

theorem startsTest_has (column : Column) (rest : List Token) :
    ∃ inside, (has column).tokens ++ rest = .sign "(" :: inside ∧ startsTest inside = true := by
  cases column <;> exact ⟨_, rfl, rfl⟩

end Beginnings

theorem Equivalent.symm {left right : Predicate} (same : left.Equivalent right) :
    right.Equivalent left := fun medium => (same medium).symm

/-- Which connective joins a single operand does not matter. -/
theorem equivalent_singleton {operand other : Predicate} (same : operand.Equivalent other) :
    (all [operand]).Equivalent (any [other]) := by
  intro medium
  rw [evaluate, evaluate, evaluateAll, evaluateAny, evaluateAll, evaluateAny, same medium]
  cases other.evaluate medium with
  | error error => rfl
  | ok truth => rcases truth with _ | _ | _ <;> rfl

variable {table : AliasTable}

/-- Tests that are written alike differ at most in what case means to a test that does not fold it. -/
theorem test_of_tokens (numbered : table.Numbered) {column column' : Column}
    (member : column ∈ table.columns) (member' : column' ∈ table.columns) {test test' : Comparison}
    {literal literal' : Literal} {caseSensitive caseSensitive' : Bool} {rest rest' : List Token}
    (same : testTokens column test literal caseSensitive ++ rest =
      testTokens column' test' literal' caseSensitive' ++ rest') :
    column = column' ∧ test = test' ∧ literal = literal' ∧
      foldsCase test literal caseSensitive = foldsCase test literal caseSensitive' ∧ rest = rest' := by
  -- What stands behind the columns, once these are known to agree.
  have behind : ∀ {token token' : Token}, column.tokens = column'.tokens →
      test.token :: (literal.tokens ++ token :: rest) =
        test'.token :: (literal'.tokens ++ token' :: rest') →
      column = column' ∧ test = test' ∧ literal = literal' ∧ rest = rest' := by
    intro token token' columns same
    obtain ⟨tests, same⟩ := List.cons.inj same
    obtain ⟨literals, same⟩ := Literal.tokens_append same
    exact ⟨numbered.eq_of_tokens member member' columns, Comparison.token_injective tests, literals,
      (List.cons.inj same).2⟩
  simp only [testTokens, List.append_assoc, List.cons_append, List.nil_append, List.cons.injEq,
    true_and] at same
  cases folds : foldsCase test literal caseSensitive <;>
    cases folds' : foldsCase test' literal' caseSensitive' <;>
    simp only [folds, folds', if_true, if_false, Bool.false_eq_true, List.append_assoc,
      List.cons_append, List.nil_append, List.cons.injEq, true_and] at same
  · obtain ⟨columns, same⟩ := Column.tokens_append same
    obtain ⟨rfl, rfl, rfl, rfl⟩ := behind columns same
    exact ⟨rfl, rfl, rfl, folds'.symm, rfl⟩
  · cases column <;> simp [Column.tokens] at same
  · cases column' <;> simp [Column.tokens] at same
  · obtain ⟨columns, same⟩ := Column.tokens_append same
    simp only [List.cons.injEq, true_and] at same
    obtain ⟨rfl, rfl, rfl, rfl⟩ := behind columns (List.cons_eq_cons.2 same)
    exact ⟨rfl, rfl, rfl, folds'.symm, rfl⟩

theorem compare_ne_has {column column' : Column} {test : Comparison} {literal : Literal}
    {caseSensitive : Bool} {rest rest' : List Token} :
    (compare column test literal caseSensitive).tokens ++ rest ≠ (has column').tokens ++ rest' := by
  intro same
  simp only [tokens, testTokens, List.append_assoc, List.cons_append, List.nil_append,
    List.cons.injEq, true_and] at same
  cases folds : foldsCase test literal caseSensitive <;>
    simp only [folds, if_true, if_false, Bool.false_eq_true, List.append_assoc, List.cons_append] at same
  · obtain ⟨tests, -⟩ := List.cons.inj (Column.tokens_append same).2
    cases test <;> simp [Comparison.token] at tests
  · cases column' <;> simp [Column.tokens] at same

theorem joined_ne_test {separator : Token} {operands : List Predicate} (some : operands ≠ [])
    {other : Predicate} {rest rest' : List Token}
    (test : ∃ inside, other.tokens ++ rest' = .sign "(" :: inside ∧ startsTest inside = true) :
    .sign "(" :: ([separator].intercalate (operands.map tokens) ++ rest) ≠ other.tokens ++ rest' := by
  intro same
  obtain ⟨inside, opens, starts⟩ := test
  rw [opens] at same
  exact intercalate_ne some starts (List.cons.inj same).2

/-- What is written like operands in brackets is an intersection or a union. -/
theorem exists_operands_of_tokens {columns : List Column} {separator : Token} {operands : List Predicate}
    (some : operands ≠ []) {other : Predicate} (formed : other.Formed columns) {rest rest' : List Token}
    (same : .sign "(" :: ([separator].intercalate (operands.map tokens) ++ rest) =
      other.tokens ++ rest') :
    ∃ others, others ≠ [] ∧ (∀ operand ∈ others, operand.Formed columns) ∧
      (other = all others ∨ other = any others) := by
  obtain ⟨more, opens⟩ := other.tokens_eq_cons
  have opened : Token.sign "(" = other.opening := (List.cons.inj (opens ▸ same)).1
  cases formed with
  | all some' each => exact ⟨_, some', each, .inl rfl⟩
  | any some' each => exact ⟨_, some', each, .inr rfl⟩
  | compare => exact absurd same (joined_ne_test some (startsTest_compare ..))
  | has => exact absurd same (joined_ne_test some (startsTest_has ..))
  | _ => simp [opening] at opened

/-- What is written like a test in brackets is a test. -/
theorem exists_column_of_tokens {columns : List Column} {inside rest : List Token} {other : Predicate}
    (formed : other.Formed columns) (starts : startsTest inside = true)
    (same : other.tokens ++ rest = .sign "(" :: inside) :
    ∃ column ∈ columns, other = has column ∨
      ∃ test literal caseSensitive, other = compare column test literal caseSensitive := by
  obtain ⟨more, opens⟩ := other.tokens_eq_cons
  have opened : other.opening = .sign "(" := (List.cons.inj (opens ▸ same)).1
  cases formed with
  | all some _ =>
      rw [tokens_all] at same
      exact absurd (List.cons.inj same).2 (intercalate_ne some starts)
  | any some _ =>
      rw [tokens_any] at same
      exact absurd (List.cons.inj same).2 (intercalate_ne some starts)
  | compare member test literal caseSensitive =>
      exact ⟨_, member, .inr ⟨test, literal, caseSensitive, rfl⟩⟩
  | has member => exact ⟨_, member, .inl rfl⟩
  | _ => simp [opening] at opened

/-- Operands that are written alike are equivalent one by one, and only where there is a single one does
the connective not show. -/
theorem operands_of_tokens {separator separator' : String} {operands others : List Predicate}
    (some : operands ≠ []) (some' : others ≠ [])
    (each : ∀ operand ∈ operands, ∀ other ∈ others, ∀ rest rest',
      operand.tokens ++ rest = other.tokens ++ rest' → operand.Equivalent other ∧ rest = rest')
    {rest rest' : List Token}
    (same : Token.sign "(" ::
        ([.word separator].intercalate (operands.map tokens) ++ .sign ")" :: rest) =
      .sign "(" :: ([.word separator'].intercalate (others.map tokens) ++ .sign ")" :: rest')) :
    List.Forall₂ Equivalent operands others ∧ rest = rest' ∧
      (separator = separator' ∨
        ∃ operand other, operand.Equivalent other ∧ operands = [operand] ∧ others = [other]) := by
  obtain ⟨alike, ends, separators | ⟨operand, rfl⟩⟩ :=
    intercalate_append (by simp) (by simp) some some' each (List.cons.inj same).2
  · exact ⟨alike, ends, .inl (Token.word.inj separators)⟩
  · obtain ⟨other, _, alone, none, rfl⟩ := List.forall₂_cons_left_iff.1 alike
    cases none
    exact ⟨alike, ends, .inr ⟨operand, other, alone, rfl, rfl⟩⟩

theorem compare_of_tokens (numbered : table.Numbered) {column column' : Column}
    (member : column ∈ table.columns) (member' : column' ∈ table.columns) {test test' : Comparison}
    {literal literal' : Literal} {caseSensitive caseSensitive' : Bool} {rest rest' : List Token}
    (same : (compare column test literal caseSensitive).tokens ++ rest =
      (compare column' test' literal' caseSensitive').tokens ++ rest') :
    (compare column test literal caseSensitive).Equivalent
      (compare column' test' literal' caseSensitive') ∧ rest = rest' := by
  rw [tokens, tokens] at same
  obtain ⟨rfl, rfl, rfl, folds, ends⟩ := test_of_tokens numbered member member' same
  refine ⟨fun medium => ?_, ends⟩
  rw [evaluate, evaluate]
  cases medium.value? column with
  | none => rfl
  | some value => exact value.compare_of_foldsCase folds

theorem has_of_tokens (numbered : table.Numbered) {column column' : Column}
    (member : column ∈ table.columns) (member' : column' ∈ table.columns) {rest rest' : List Token}
    (same : (has column).tokens ++ rest = (has column').tokens ++ rest') :
    column = column' ∧ rest = rest' := by
  rw [tokens, tokens] at same
  simp only [List.append_assoc, List.cons_append, List.cons.injEq, true_and] at same
  obtain ⟨columns, same⟩ := Column.tokens_append same
  exact ⟨numbered.eq_of_tokens member member' columns, by simpa using same⟩

/-- Where two texts agree that start with conditions over the columns of one table, the conditions end at
the same place and evaluate alike. -/
theorem equivalent_of_tokens (numbered : table.Numbered) {left right : Predicate}
    (formed : left.Formed table.columns) (formed' : right.Formed table.columns)
    {rest rest' : List Token} (same : left.tokens ++ rest = right.tokens ++ rest') :
    left.Equivalent right ∧ rest = rest' := by
  induction formed generalizing right rest rest' with
  | always =>
      have opened := opening_eq same
      cases formed' <;> simp [opening] at opened
      exact ⟨congruence_equivalent.refl _, List.append_cancel_left same⟩
  | never =>
      have opened := opening_eq same
      cases formed' <;> simp [opening] at opened
      exact ⟨congruence_equivalent.refl _, List.append_cancel_left same⟩
  | not inside ih =>
      have opened := opening_eq same
      cases formed' <;> simp [opening] at opened
      next inside' =>
        rw [tokens, tokens] at same
        obtain ⟨alike, ends⟩ := ih inside' (List.cons.inj same).2
        exact ⟨congruence_equivalent.not alike, ends⟩
  | inIds some =>
      have opened := opening_eq same
      cases formed' <;> simp [opening] at opened
      next some' =>
        rw [tokens_inIds, tokens_inIds] at same
        obtain ⟨rfl, ends⟩ := ids_append some some' (List.append_cancel_left same)
        exact ⟨congruence_equivalent.refl _, ends⟩
  | all some _ ih =>
      rw [tokens_all] at same
      obtain ⟨others, some', each', rfl | rfl⟩ := exists_operands_of_tokens some formed' same
      · rw [tokens_all] at same
        obtain ⟨alike, ends, -⟩ := operands_of_tokens some some'
          (fun operand member other member' _ _ => ih operand member (each' other member')) same
        exact ⟨congruence_equivalent.all alike, ends⟩
      · rw [tokens_any] at same
        obtain ⟨-, ends, differ | ⟨operand, other, alone, rfl, rfl⟩⟩ := operands_of_tokens some some'
          (fun operand member other member' _ _ => ih operand member (each' other member')) same
        · exact absurd differ (by decide)
        · exact ⟨equivalent_singleton alone, ends⟩
  | any some _ ih =>
      rw [tokens_any] at same
      obtain ⟨others, some', each', rfl | rfl⟩ := exists_operands_of_tokens some formed' same
      · rw [tokens_all] at same
        obtain ⟨-, ends, differ | ⟨operand, other, alone, rfl, rfl⟩⟩ := operands_of_tokens some some'
          (fun operand member other member' _ _ => ih operand member (each' other member')) same
        · exact absurd differ (by decide)
        · exact ⟨(equivalent_singleton alone.symm).symm, ends⟩
      · rw [tokens_any] at same
        obtain ⟨alike, ends, -⟩ := operands_of_tokens some some'
          (fun operand member other member' _ _ => ih operand member (each' other member')) same
        exact ⟨congruence_equivalent.any alike, ends⟩
  | compare member test literal caseSensitive =>
      obtain ⟨inside, opens, starts⟩ := startsTest_compare _ test literal caseSensitive rest
      obtain ⟨column', member', rfl | ⟨test', literal', caseSensitive', rfl⟩⟩ :=
        exists_column_of_tokens formed' starts (same ▸ opens)
      · exact absurd same compare_ne_has
      · exact compare_of_tokens numbered member member' same
  | has member =>
      obtain ⟨inside, opens, starts⟩ := startsTest_has _ rest
      obtain ⟨column', member', rfl | ⟨test', literal', caseSensitive', rfl⟩⟩ :=
        exists_column_of_tokens formed' starts (same ▸ opens)
      · obtain ⟨rfl, ends⟩ := has_of_tokens numbered member member' same
        exact ⟨congruence_equivalent.refl _, ends⟩
      · exact absurd same.symm compare_ne_has

end Predicate

namespace State

variable {state : State} {defaultBase : String} {tree : Node} {params : QueryParams}
  {query : CompiledQuery}

/-- Two queries with the same aliases whose conditions are written alike have conditions that evaluate
alike on every medium: to the same truth value or to the same error. -/
theorem evaluate_eq_of_conditions {state' : State} {defaultBase' : String} {tree' : Node}
    {params' : QueryParams} {query' : CompiledQuery}
    (compiled : state.compile defaultBase tree params = .ok query)
    (compiled' : state'.compile defaultBase' tree' params' = .ok query')
    (aliases : query.aliases = query'.aliases) (conditions : query.conditions = query'.conditions)
    (medium : Medium) : query.predicate.evaluate medium = query'.predicate.evaluate medium := by
  obtain ⟨renders, table, numbered, named, formed⟩ := exists_numbered compiled
  obtain ⟨renders', table', -, named', formed'⟩ := exists_numbered compiled'
  have columns : table'.columns = table.columns := by
    rw [AliasTable.columns, AliasTable.columns, ← named, ← named', aliases]
  have tokens : query.predicate.tokens ++ [] = query'.predicate.tokens ++ [] := by
    rw [← Predicate.lex_render, ← Predicate.lex_render, ← renders, ← renders', conditions]
  exact (Predicate.equivalent_of_tokens numbered formed (columns ▸ formed') tokens).1 medium

/-- A title that looks like SQL, looked for by a union and by an intersection of one filter. -/
theorem evaluate_eq_of_conditions_quoted :
    let titled : Node := .filter ⟨0, none⟩ (.filter .equals) "title" "' OR '1'='1" (.everything ⟨1, none⟩)
    let joined : Node := .unary ⟨2, none⟩ { kind := .union } titled
    let met : Node := .unary ⟨2, none⟩ { kind := .intersection } titled
    ∃ query query' : CompiledQuery, ({} : State).compile "url" joined {} = .ok query ∧
      ({} : State).compile "id" met { order := ["-title"] } = .ok query' ∧
      query.aliases = query'.aliases ∧ query.conditions = query'.conditions ∧
      ∀ medium, query.predicate.evaluate medium = query'.predicate.evaluate medium := by
  intro titled joined met
  let test : Predicate := .compare (.value 0 "title") .equals (.text "' OR '1'='1") false
  let asked : List Condition := [.compares .equals "title" "' OR '1'='1" false]
  have compiled : ({} : State).compile "url" joined {} =
      .ok (.assemble {} ⟨[], none, joined⟩ (.any [test]) (.askAll { defaultBase := "url" } asked)) := rfl
  have compiled' : ({} : State).compile "id" met { order := ["-title"] } =
      .ok (.assemble { order := ["-title"] } ⟨[], none, met⟩ (.all [test])
        (.askAll { defaultBase := "id" } asked)) := rfl
  exact ⟨_, _, compiled, compiled', rfl, rfl, evaluate_eq_of_conditions compiled compiled' rfl rfl⟩

end State

end Medley
