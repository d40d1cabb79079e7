import Medley.Proofs.Sql.Columns
import Medley.Proofs.Sql.Rendering

/-!
# The outline of a query

What is left of the tokens of a query without the texts of its literals and the names of its answers
(`CompiledQuery.outline`).  It is made of keywords, marks, integers and the numbered names of aliases, and
is what a database reads in the text of the query (`CompiledQuery.outline_sql`).
-/

namespace Medley

open Sql

namespace Sql

/-- A token without the text of a literal. -/
def Token.blank : Token → Token
  | .literal _ => .literal ""
  | token => token

/-- Tokens without the texts of literals and without the names behind `AS`. -/
def outline : List Token → List Token
  | .word "AS" :: _ :: rest => .word "AS" :: outline rest
  | token :: rest => token.blank :: outline rest
  | [] => []

/-- The names behind `AS`. -/
def answerNames : List Token → List Token
  | .word "AS" :: name :: rest => name :: answerNames rest
  | _ :: rest => answerNames rest
  | [] => []

/-- The words that queries are made of. -/
def keywords : List String :=
  ["SELECT", "DISTINCT", "AS", "FROM", "Media", "as", "id", "key", "value", "LEFT", "JOIN", "ON", "WHERE",
    "AND", "OR", "NOT", "IN", "is", "not", "null", "LIKE", "GLOB", "COLLATE", "NOCASE", "GROUP", "BY",
    "ORDER", "RANDOM", "DESC", "LIMIT"]

/-- The operators and the punctuation that queries are made of. -/
def marks : List String := ["(", ")", ".", ",", "-", "=", "<>", "<", "<=", ">", ">="]

/-- Whether a token is a keyword, a mark or the digits of an integer. -/
def Token.isKeyword : Token → Bool
  | .word text => keywords.contains text
  | .sign text => marks.contains text
  | .number _ => true
  | .literal _ | .name _ | .unclosed => false

/-- Whether a token is a keyword, a mark, the digits of an integer or the name of a table alias. -/
def Token.IsFixed (token : Token) : Prop :=
  token.isKeyword = true ∨ ∃ number, token = .word (aliasName number)

/-- Whether a token may stand behind the answers: it is fixed or a literal, and names no answer. -/
def Token.IsPlain (token : Token) : Prop :=
  token ≠ .word "AS" ∧ (token.IsFixed ∨ ∃ text, token = .literal text)

theorem blank_intercalate (separator : Token) (lists : List (List Token)) :
    ([separator].intercalate lists).map Token.blank =
      [separator.blank].intercalate (lists.map fun tokens => tokens.map Token.blank) := by
  induction lists with
  | nil => rfl
  | cons tokens rest ih =>
      cases rest with
      | nil => simp
      | cons next rest =>
          rw [List.map_cons] at ih
          simp only [List.map_cons, List.intercalate_cons_cons, List.map_append, ih, List.map_nil]

theorem forall₂_flatMap {ι : Type} {names : ι → List Token} {items : List ι}
    (single : ∀ item ∈ items, ∃ name, names item = [name]) :
    List.Forall₂ (fun item name => names item = [name]) items (items.flatMap names) := by
  induction items with
  | nil => exact .nil
  | cons item rest ih =>
      obtain ⟨name, named⟩ := single item (.head _)
      rw [List.flatMap_cons, named]
      exact .cons named (ih fun other member => single other (.tail _ member))

section Outlines

variable {left right : List Token}

theorem outline_append (plain : .word "AS" ∉ left) :
    outline (left ++ right) = left.map Token.blank ++ outline right := by
  induction left with
  | nil => rfl
  | cons token rest ih =>
      have other : token ≠ .word "AS" := fun same => plain (same ▸ .head _)
      rw [List.cons_append, outline, ih fun member => plain (.tail _ member)]
      · rfl
      · exact fun _ _ same => absurd same other

theorem answerNames_append (plain : .word "AS" ∉ left) :
    answerNames (left ++ right) = answerNames right := by
  induction left with
  | nil => rfl
  | cons token rest ih =>
      have other : token ≠ .word "AS" := fun same => plain (same ▸ .head _)
      rw [List.cons_append, answerNames, ih fun member => plain (.tail _ member)]
      exact fun _ _ same => absurd same other

theorem outline_of_plain (plain : .word "AS" ∉ left) : outline left = left.map Token.blank := by
  have whole : outline (left ++ []) = left.map Token.blank ++ outline [] := outline_append plain
  rwa [List.append_nil, show outline [] = [] from rfl, List.append_nil] at whole

theorem answerNames_of_plain (plain : .word "AS" ∉ left) : answerNames left = [] := by
  have whole : answerNames (left ++ []) = answerNames [] := answerNames_append plain
  rwa [List.append_nil] at whole

/-- Columns with the names of the answers that they give. -/
theorem outline_answers {ι : Type} {columns names : ι → List Token} {items : List ι} (some : items ≠ [])
    (plain : ∀ item ∈ items, .word "AS" ∉ columns item)
    (single : ∀ item ∈ items, ∃ name, names item = [name]) (rest : List Token) :
    outline ([.sign ","].intercalate (items.map fun item => columns item ++ [.word "AS"] ++ names item) ++
        rest) =
      [.sign ","].intercalate (items.map fun item =>
        (columns item).map Token.blank ++ [.word "AS"]) ++ outline rest ∧
    answerNames ([.sign ","].intercalate (items.map fun item =>
        columns item ++ [.word "AS"] ++ names item) ++ rest) =
      items.flatMap names ++ answerNames rest := by
  induction items with
  | nil => exact absurd rfl some
  | cons item others ih =>
      obtain ⟨name, named⟩ := single item (.head _)
      have first : ∀ rest : List Token,
          outline (columns item ++ (.word "AS" :: name :: rest)) =
            (columns item).map Token.blank ++ (.word "AS" :: outline rest) ∧
          answerNames (columns item ++ (.word "AS" :: name :: rest)) = name :: answerNames rest := by
        intro rest
        rw [outline_append (plain item (.head _)), answerNames_append (plain item (.head _))]
        exact ⟨rfl, rfl⟩
      cases others with
      | nil =>
          simp only [List.map_cons, List.map_nil, List.intercalate_singleton, List.flatMap_cons,
            List.flatMap_nil, named, List.append_assoc, List.cons_append, List.nil_append]
          exact first rest
      | cons next more =>
          obtain ⟨outlined, answered⟩ := ih (List.cons_ne_nil _ _)
            (fun other member => plain other (.tail _ member))
            fun other member => single other (.tail _ member)
          rw [List.map_cons, List.map_cons, List.map_cons, List.map_cons, List.intercalate_cons_cons,
            List.intercalate_cons_cons, List.flatMap_cons, named]
          simp only [List.map_cons, List.append_assoc, List.cons_append, List.nil_append] at outlined answered ⊢
          rw [(first _).1, (first _).2]
          refine ⟨?_, ?_⟩
          · rw [← outlined]
            rfl
          · rw [← answered]
            rfl

end Outlines

/-! ## Plain tokens -/

theorem Token.IsPlain.ne {tokens : List Token} (plain : ∀ token ∈ tokens, token.IsPlain) :
    .word "AS" ∉ tokens := fun member => (plain _ member).1 rfl

theorem plain_aliasName (number : Nat) : (Token.word (aliasName number)).IsPlain := by
  refine ⟨fun same => ?_, .inl (.inr ⟨number, rfl⟩)⟩
  have spelled := congrArg String.toList (Token.word.inj same)
  rw [aliasName, String.toList_append] at spelled
  exact absurd (List.cons.inj spelled).1 (by decide)

/-- Keywords and marks are plain, and so is the name of the base. -/
theorem plain_keyword {token : Token}
    (fixed : (token != .word "AS" && (token.isKeyword || token == .word "m0")) = true) :
    token.IsPlain := by
  rw [Bool.and_eq_true, bne_iff_ne, Bool.or_eq_true, beq_iff_eq] at fixed
  obtain ⟨other, keyword | rfl⟩ := fixed
  · exact ⟨other, .inl (.inl keyword)⟩
  · exact plain_aliasName 0

theorem plain_keywords {tokens : List Token} (fixed : tokens.all (fun token =>
      token != .word "AS" && (token.isKeyword || token == .word "m0")) = true) :
    ∀ token ∈ tokens, token.IsPlain :=
  fun token member => plain_keyword (List.all_eq_true.1 fixed token member)

theorem Token.IsPlain.fixed_blank {token : Token} (plain : token.IsPlain) :
    token.blank.IsFixed ∨ token.blank = .literal "" := by
  rcases plain.2 with fixed | ⟨text, rfl⟩
  · refine .inl ?_
    cases token with
    | literal text => exact absurd fixed (by simp [Token.IsFixed, Token.isKeyword])
    | _ => exact fixed
  · exact .inr rfl

theorem plain_literal (text : String) : (Token.literal text).IsPlain := ⟨nofun, .inr ⟨text, rfl⟩⟩

/-- What holds of every token of some lists and of the separator holds of all tokens. -/
theorem forall_intercalate {holds : Token → Prop} {ι : Type} {separator : Token}
    {tokens : ι → List Token} {items : List ι} (separates : holds separator)
    (each : ∀ item ∈ items, ∀ token ∈ tokens item, holds token) :
    ∀ token ∈ [separator].intercalate (items.map tokens), holds token := by
  induction items with
  | nil => exact fun _ member => nomatch member
  | cons item rest ih =>
      have first := each item (.head _)
      cases rest with
      | nil => simpa using first
      | cons next rest =>
          rw [List.map_cons, List.map_cons, List.intercalate_cons_cons, List.forall_mem_append,
            List.forall_mem_append, List.forall_mem_singleton]
          exact ⟨⟨first, separates⟩, ih fun other member => each other (.tail _ member)⟩

theorem plain_integer (value : Int) : ∀ token ∈ integerTokens value, token.IsPlain := by
  cases value <;> exact plain_keywords rfl

end Sql

theorem Column.plain_tokens (column : Column) : ∀ token ∈ column.tokens, token.IsPlain := by
  cases column with
  | id => exact plain_keywords rfl
  | value number field =>
      exact List.forall_mem_cons.2 ⟨plain_aliasName number, plain_keywords rfl⟩

theorem Column.blank_tokens (column : Column) : column.tokens.map Token.blank = column.tokens := by
  cases column <;> rfl

theorem Literal.plain_tokens (literal : Literal) : ∀ token ∈ literal.tokens, token.IsPlain := by
  cases literal with
  | integer value => exact plain_integer value.toInt
  | text value => exact List.forall_mem_singleton.2 (plain_literal value)

namespace Predicate

theorem plain_test (column : Column) (test : Comparison) (literal : Literal) (caseSensitive : Bool) :
    ∀ token ∈ testTokens column test literal caseSensitive, token.IsPlain := by
  have compares : test.token.IsPlain := by cases test <;> exact plain_keyword rfl
  simp only [testTokens, List.forall_mem_append, List.forall_mem_cons, List.not_mem_nil,
    IsEmpty.forall_iff, implies_true, and_true]
  refine ⟨⟨⟨⟨plain_keyword rfl, ?_⟩, compares⟩, literal.plain_tokens⟩, plain_keyword rfl⟩
  split
  · exact List.forall_mem_append.2
      ⟨List.forall_mem_cons.2 ⟨plain_keyword rfl, column.plain_tokens⟩, plain_keywords rfl⟩
  · exact column.plain_tokens

/-- A condition is made of plain tokens, whatever it compares with. -/
theorem plain_tokens (predicate : Predicate) : ∀ token ∈ predicate.tokens, token.IsPlain := by
  induction predicate using Predicate.induction with
  | always => exact plain_keywords rfl
  | never => exact plain_keywords rfl
  | all operands ih =>
      rw [tokens, tokensEach_eq_map, List.forall_mem_append, List.forall_mem_cons]
      exact ⟨⟨plain_keyword rfl, forall_intercalate (plain_keyword rfl) ih⟩, plain_keywords rfl⟩
  | any operands ih =>
      rw [tokens, tokensEach_eq_map, List.forall_mem_append, List.forall_mem_cons]
      exact ⟨⟨plain_keyword rfl, forall_intercalate (plain_keyword rfl) ih⟩, plain_keywords rfl⟩
  | not operand ih =>
      rw [tokens]
      exact List.forall_mem_cons.2 ⟨plain_keyword rfl, ih⟩
  | compare column test literal caseSensitive =>
      rw [tokens]
      exact plain_test column test literal caseSensitive
  | has column =>
      rw [tokens, List.forall_mem_append, List.forall_mem_cons]
      exact ⟨⟨plain_keyword rfl, column.plain_tokens⟩, plain_keywords rfl⟩
  | inIds ids =>
      rw [tokens, List.forall_mem_append, List.forall_mem_append]
      exact ⟨⟨plain_keywords rfl, forall_intercalate (plain_keyword rfl) fun id _ =>
        plain_integer id.toInt⟩, plain_keywords rfl⟩

end Predicate

theorem Alias.plain_tokens (entry : Alias) : ∀ token ∈ entry.tokens, token.IsPlain := by
  have name := plain_aliasName entry.number
  simp only [Alias.tokens, List.forall_mem_append, List.forall_mem_singleton]
  refine ⟨⟨⟨⟨⟨⟨⟨⟨?_, ?_⟩, name⟩, ?_⟩, name⟩, ?_⟩, name⟩, ?_⟩, plain_literal entry.field⟩
  · cases entry.optional <;> exact plain_keywords rfl
  all_goals exact plain_keywords rfl

theorem OrderBy.plain_tokens {order : OrderBy} (plain : order.IsPlain) :
    ∀ token ∈ order.tokens, token.IsPlain := by
  have suffix : ∀ token ∈ order.suffix, token.IsPlain := by
    unfold OrderBy.suffix
    refine List.forall_mem_append.2 ⟨?_, ?_⟩
    · rcases plain with none | folded
      · exact none ▸ plain_keywords rfl
      · exact folded ▸ plain_keywords rfl
    · split <;> exact plain_keywords rfl
  unfold OrderBy.tokens
  split
  · exact List.forall_mem_append.2 ⟨plain_keywords rfl, suffix⟩
  · exact plain_keywords rfl
  · exact List.forall_mem_append.2 ⟨Column.plain_tokens _, suffix⟩
  · next field _ =>
    have literal := List.forall_mem_singleton.2 (plain_literal field)
    exact List.forall_mem_append.2 ⟨List.forall_mem_append.2 ⟨List.forall_mem_append.2
      ⟨plain_keywords rfl, literal⟩, plain_keywords rfl⟩, suffix⟩

theorem Range.plain_tokens (range : Range) : ∀ token ∈ range.tokens, token.IsPlain := by
  unfold Range.tokens
  split
  · exact plain_keywords rfl
  · split <;> exact plain_keywords rfl

namespace CompiledQuery

variable {query : CompiledQuery}

/-- Behind its answers a query names nothing. -/
theorem plain_tail (plain : ∀ order ∈ query.orderBy, order.IsPlain) :
    ∀ token ∈ query.tail, token.IsPlain := by
  have listed : ∀ {ι : Type} {opened : List Token} {tokens : ι → List Token} {items : List ι},
      (∀ token ∈ opened, token.IsPlain) → (∀ item ∈ items, ∀ token ∈ tokens item, token.IsPlain) →
      ∀ token ∈ (if items.isEmpty then [] else opened ++ [.sign ","].intercalate (items.map tokens)),
        token.IsPlain := by
    intro ι opened tokens items opens each
    split
    · exact fun _ member => absurd member List.not_mem_nil
    · exact List.forall_mem_append.2 ⟨opens, forall_intercalate (plain_keyword rfl) each⟩
  have joins : ∀ token ∈ query.joins.flatMap Alias.tokens, token.IsPlain := by
    intro token member
    obtain ⟨entry, -, inside⟩ := List.mem_flatMap.1 member
    exact entry.plain_tokens token inside
  simp only [tail, List.forall_mem_append, List.forall_mem_singleton]
  refine ⟨⟨⟨⟨⟨⟨⟨⟨plain_keywords rfl, joins⟩, plain_keywords rfl⟩, plain_literal _⟩,
    plain_keyword rfl⟩, query.predicate.plain_tokens⟩, ?_⟩, ?_⟩, ?_⟩
  · exact listed (plain_keywords rfl) fun column _ => column.plain_tokens
  · exact listed (plain_keywords rfl) fun order member => OrderBy.plain_tokens (plain order member)
  · cases query.limit with
    | none => exact fun _ member => absurd member List.not_mem_nil
    | some range => exact range.plain_tokens

/-- The tokens of a query without the texts of its literals and the names of its answers. -/
def outline (query : CompiledQuery) : List Token :=
  [.word "SELECT", .word "DISTINCT"] ++
    (if query.fetch.isEmpty then Column.id.tokens ++ [.word "AS"]
      else [.sign ","].intercalate (query.fetch.map fun entry => entry.column.tokens ++ [.word "AS"])) ++
    query.tail.map Token.blank

/-- What a database reads of a query is its outline, with one name for every answer and the texts of the
literals. -/
theorem outline_tokens (plain : ∀ order ∈ query.orderBy, order.IsPlain)
    (single : ∀ entry ∈ query.fetch, ∃ name, lex entry.field = [name]) :
    Sql.outline query.tokens = query.outline ∧
      List.Forall₂ (fun field name => lex field = [name])
        (if query.fetch.isEmpty then ["id"] else query.fetch.map FetchField.field)
        (answerNames query.tokens) := by
  have behind := Token.IsPlain.ne (plain_tail plain)
  have selects : Token.word "AS" ∉ [Token.word "SELECT", .word "DISTINCT"] := by decide
  rw [tokens, List.append_assoc, outline_append selects, answerNames_append selects, outline,
    List.append_assoc, answers]
  by_cases none : query.fetch = []
  · simp only [none, List.isEmpty_nil, if_true]
    refine ⟨?_, ?_⟩
    · rw [← outline_of_plain behind]
      rfl
    · have answered : answerNames (Column.id.tokens ++ [.word "AS", .word "id"] ++ query.tail) =
          [.word "id"] := congrArg (Token.word "id" :: ·) (answerNames_of_plain behind)
      rw [answered]
      exact .cons rfl .nil
  · have some : query.fetch.isEmpty = false := List.isEmpty_eq_false_iff.2 none
    obtain ⟨outlined, answered⟩ := outline_answers none
      (fun entry _ => Token.IsPlain.ne entry.column.plain_tokens) single query.tail
    simp only [some, Bool.false_eq_true, if_false, outlined, answered, Column.blank_tokens,
      outline_of_plain behind, answerNames_of_plain behind, List.append_nil]
    exact ⟨rfl, List.forall₂_map_left_iff.2 (forall₂_flatMap single)⟩

/-- Keywords, marks, integers and the names of table aliases are all that there is in an outline besides
the places of literals. -/
theorem fixed_outline (plain : ∀ order ∈ query.orderBy, order.IsPlain) :
    ∀ token ∈ query.outline, token.IsFixed ∨ token = .literal "" := by
  have columns : ∀ column : Column, ∀ token ∈ column.tokens ++ [.word "AS"],
      token.IsFixed ∨ token = .literal "" := by
    intro column
    refine List.forall_mem_append.2 ⟨fun token member => ?_, List.forall_mem_singleton.2 (.inl (.inl rfl))⟩
    rw [← column.blank_tokens] at member
    obtain ⟨token, inside, rfl⟩ := List.mem_map.1 member
    exact (column.plain_tokens token inside).fixed_blank
  unfold outline
  refine List.forall_mem_append.2 ⟨List.forall_mem_append.2 ⟨?_, ?_⟩, fun token member => ?_⟩
  · exact List.forall_mem_cons.2 ⟨.inl (.inl rfl), List.forall_mem_singleton.2 (.inl (.inl rfl))⟩
  · split
    · exact columns .id
    · exact forall_intercalate (.inl (.inl rfl)) fun entry _ => columns entry.column
  · obtain ⟨token, inside, rfl⟩ := List.mem_map.1 member
    exact (plain_tail plain token inside).fixed_blank

end CompiledQuery

end Medley
