import Medley.Proofs.Sql.Lexing
import Medley.Query.Compiled

/-!
# The tokens of conditions and queries

What a database sees of a condition (`Predicate.tokens`) and of a query (`CompiledQuery.tokens`).
-/

namespace Medley

open Sql

namespace Sql

/-- The tokens of an integer. -/
def integerTokens : Int → List Token
  | .ofNat value => [.number (Text.writeNat value)]
  | .negSucc value => [.sign "-", .number (Text.writeNat (value + 1))]

/-- Texts one after the other, with a separator in between. -/
theorem Reads.intercalate {ι : Type} {separator : String} {separated : List Token}
    {render : ι → String} {tokens : ι → List Token} {items : List ι} (some : items ≠ [])
    (separates : Reads isBreak anything separator separated)
    (each : ∀ item ∈ items, Reads anything isBreak (render item) (tokens item)) :
    Reads anything isBreak (separator.intercalate (items.map render))
      (separated.intercalate (items.map tokens)) := by
  induction items with
  | nil => exact absurd rfl some
  | cons item rest ih =>
      have first := each item (.head _)
      cases rest with
      | nil => simpa using first
      | cons next rest =>
          have later := ih nofun fun other member => each other (.tail _ member)
          rw [List.map_cons, List.map_cons, List.map_cons, List.map_cons,
            String.intercalate_cons_cons, List.intercalate_cons_cons]
          exact (first.append separates).append later

/-- Neither a literal nor a column continues an operator before it. -/
theorem extend?_of_startsOperand {first char : Char} (starts : startsOperand char = true)
    (other : first ≠ '-') : (Pending.sign first).extend? char = none := by
  rw [Pending.extend?, if_neg fun minus => other minus.1, if_neg, if_neg]
  · intro pair
    simp only [pairs, List.mem_cons, Prod.mk.injEq, List.not_mem_nil, or_false] at pair
    rcases pair with ⟨-, rfl⟩ | ⟨-, rfl⟩ | ⟨-, rfl⟩ | ⟨-, rfl⟩ | ⟨-, rfl⟩ | ⟨-, rfl⟩ | ⟨-, rfl⟩ |
      ⟨-, rfl⟩ <;> cases starts
  · rintro ⟨-, rfl⟩
    cases starts

theorem reads_writeNat (value : Nat) :
    Reads Char.isDigit isBreak (Text.writeNat value) [.number (Text.writeNat value)] := by
  obtain ⟨first, rest, made⟩ := List.exists_cons_of_ne_nil (Text.writeDigits_ne_nil value)
  have digits : (Text.writeNat value).toList = first :: rest := by
    rw [Text.writeNat, String.toList_ofList, made]
  exact reads_digits digits fun char member => Text.isDigit_of_mem_writeDigits (made ▸ member)

theorem reads_integer (value : Int) :
    Reads startsOperand isBreak (String.ofList (Text.writeInteger value)) (integerTokens value) := by
  cases value with
  | ofNat value =>
      exact (reads_writeNat value).mono (fun char digit => by simp [startsOperand, isWordPart, digit]) fun _ => id
  | negSucc value =>
      have minus : Reads startsOperand Char.isDigit "-" [.sign "-"] := by
        refine reads_fixed rfl rfl fun char digit => ?_
        have other : char ≠ '-' := by
          rintro rfl
          cases digit
        show (if _ ∧ char = '-' then some Pending.remark else none) = none
        rw [if_neg fun minus => other minus.2]
      have written : String.ofList (Text.writeInteger (.negSucc value)) =
          "-" ++ Text.writeNat (value + 1) := by
        rw [← String.toList_inj]
        simp [Text.writeInteger, Text.writeNat]
      exact written ▸ minus.append (reads_writeNat (value + 1))

theorem reads_aliasName (number : Nat) :
    Reads isWordStart isBreak (aliasName number) [.word (aliasName number)] := by
  have spelled : (aliasName number).toList = 'm' :: Text.writeDigits number := by
    simp [aliasName, Text.writeNat]
  refine reads_word spelled rfl fun char member => ?_
  simp [isWordPart, Text.isDigit_of_mem_writeDigits member]

end Sql

/-- The tokens of a column. -/
def Column.tokens : Column → List Token
  | .id => [.word "m0", .sign ".", .word "id"]
  | .value number _ => [.word (aliasName number), .sign ".", .word "value"]

theorem Column.reads (column : Column) : Reads anything isBreak column.render column.tokens := by
  cases column with
  | id => exact reads_fixed rfl rfl fun _ => extend?_word
  | value number field =>
      have behind : Reads isBreak isBreak ".value" [.sign ".", .word "value"] :=
        reads_fixed rfl rfl fun _ => extend?_word
      exact ((reads_aliasName number).append behind).anywhere

/-- The tokens of a literal. -/
def Literal.tokens : Literal → List Token
  | .integer value => integerTokens value.toInt
  | .text value => [.literal value]

theorem reads_quoteText (text : String) :
    Reads startsOperand isBreak (quoteText text) [.literal text] :=
  (reads_quoted (.inl rfl) text).mono (by simp [startsOperand]) fun _ breaks => breaks

theorem Literal.reads (literal : Literal) :
    Reads startsOperand isBreak literal.render literal.tokens := by
  cases literal with
  | integer value => exact reads_integer value.toInt
  | text value => exact reads_quoteText value

/-- The token of a comparison. -/
def Comparison.token : Comparison → Token
  | .equals => .sign "="
  | .notEqual => .sign "<>"
  | .smaller => .sign "<"
  | .smallerEq => .sign "<="
  | .greater => .sign ">"
  | .greaterEq => .sign ">="
  | .like => .word "LIKE"
  | .glob => .word "GLOB"

theorem Comparison.reads (test : Comparison) :
    Reads isBreak startsOperand test.symbol [test.token] := by
  cases test with
  | equals | smaller | greater =>
      exact reads_fixed rfl rfl fun _ starts => extend?_of_startsOperand starts (by decide)
  | notEqual | smallerEq | greaterEq | like | glob => exact reads_fixed rfl rfl fun _ _ => rfl

namespace Predicate

/-- The tokens of a test. -/
def testTokens (column : Column) (test : Comparison) (literal : Literal) (caseSensitive : Bool) :
    List Token :=
  .sign "(" :: (if foldsCase test literal caseSensitive then
      .sign "(" :: column.tokens ++ [.word "COLLATE", .word "NOCASE", .sign ")"]
    else column.tokens) ++ [test.token] ++ literal.tokens ++ [.sign ")"]

mutual

/-- The tokens of a condition. -/
def tokens : Predicate → List Token
  | always => [.number "1"]
  | never => [.number "0"]
  | all operands => .sign "(" :: [.word "AND"].intercalate (tokensEach operands) ++ [.sign ")"]
  | any operands => .sign "(" :: [.word "OR"].intercalate (tokensEach operands) ++ [.sign ")"]
  | not operand => .word "NOT" :: tokens operand
  | compare column test literal caseSensitive => testTokens column test literal caseSensitive
  | has column => .sign "(" :: column.tokens ++ [.word "is", .word "not", .word "null", .sign ")"]
  | inIds ids => Column.id.tokens ++ [.word "IN", .sign "("] ++
      [.sign ","].intercalate (ids.map fun id => integerTokens id.toInt) ++ [.sign ")"]

/-- The tokens of every condition of a list. -/
def tokensEach : List Predicate → List (List Token)
  | [] => []
  | operand :: rest => tokens operand :: tokensEach rest

end

theorem tokensEach_eq_map (operands : List Predicate) :
    tokensEach operands = operands.map tokens := by
  induction operands with
  | nil => rfl
  | cons operand rest ih => rw [tokensEach, ih, List.map_cons]

section Reading

variable {starts : Char → Bool}

theorem reads_open : Reads anything anything "(" [.sign "("] := reads_fixed rfl rfl fun _ _ => rfl

theorem reads_close (head : starts ')' = true) {ends : Char → Bool} :
    Reads starts ends ")" [.sign ")"] := reads_fixed rfl head fun _ _ => rfl

theorem reads_test (column : Column) (test : Comparison) (literal : Literal) (caseSensitive : Bool) :
    Reads anything isBreak (renderTest column test literal caseSensitive)
      (testTokens column test literal caseSensitive) := by
  have left : Reads anything isBreak
      (if foldsCase test literal caseSensitive then "(" ++ column.render ++ " COLLATE NOCASE)"
        else column.render)
      (if foldsCase test literal caseSensitive then
        .sign "(" :: column.tokens ++ [.word "COLLATE", .word "NOCASE", .sign ")"]
        else column.tokens) := by
    split
    · have collates : Reads isBreak isBreak " COLLATE NOCASE)"
          [.word "COLLATE", .word "NOCASE", .sign ")"] := reads_fixed rfl rfl fun _ _ => rfl
      exact (reads_open.append column.reads).append collates
    · exact column.reads
  exact (((reads_open.append left).append test.reads).append literal.reads).append (reads_close rfl)

/-- Items in brackets, with a separator in between. -/
theorem reads_listed {ι : Type} {opening separator : String} {opened separated : List Token}
    {render : ι → String} {tokens : ι → List Token} {items : List ι}
    (opens : Reads anything anything opening opened)
    (separates : Reads isBreak anything separator separated)
    (each : ∀ item ∈ items, Reads anything isBreak (render item) (tokens item)) :
    Reads anything isBreak (opening ++ separator.intercalate (items.map render) ++ ")")
      (opened ++ separated.intercalate (items.map tokens) ++ [.sign ")"]) := by
  cases items with
  | nil => simpa using opens.append (reads_close rfl)
  | cons item rest =>
      exact (opens.append (.intercalate (List.cons_ne_nil _ _) separates each)).append (reads_close rfl)

/-- A condition reads as its tokens. -/
theorem reads (predicate : Predicate) : Reads anything isBreak predicate.render predicate.tokens := by
  induction predicate using Predicate.induction with
  | always => exact reads_fixed rfl rfl fun _ => extend?_number
  | never => exact reads_fixed rfl rfl fun _ => extend?_number
  | all operands ih =>
      rw [render, tokens, renderEach_eq_map, tokensEach_eq_map]
      exact reads_listed reads_open (reads_fixed rfl rfl fun _ _ => rfl) ih
  | any operands ih =>
      rw [render, tokens, renderEach_eq_map, tokensEach_eq_map]
      exact reads_listed reads_open (reads_fixed rfl rfl fun _ _ => rfl) ih
  | not operand ih =>
      rw [render, tokens]
      have negates : Reads anything anything "NOT " [.word "NOT"] := reads_fixed rfl rfl fun _ _ => rfl
      exact negates.append ih
  | compare column test literal caseSensitive =>
      rw [render, tokens]
      exact reads_test column test literal caseSensitive
  | has column =>
      rw [render, tokens]
      have present : Reads isBreak isBreak " is not null)"
          [.word "is", .word "not", .word "null", .sign ")"] := reads_fixed rfl rfl fun _ _ => rfl
      exact (reads_open.append column.reads).append present
  | inIds ids =>
      rw [render, tokens]
      have opens : Reads anything anything "m0.id IN (" (Column.id.tokens ++ [.word "IN", .sign "("]) :=
        reads_fixed rfl rfl fun _ _ => rfl
      exact reads_listed opens (reads_fixed rfl rfl fun _ _ => rfl) fun id _ =>
        (reads_integer id.toInt).anywhere

/-- The tokens of a rendered condition are those of the condition. -/
theorem lex_render (predicate : Predicate) : lex predicate.render = predicate.tokens :=
  predicate.reads.lex

end Reading

end Predicate

/-! ## Queries -/

namespace Alias

/-- The tokens of a joined alias. -/
def tokens (entry : Alias) : List Token :=
  (if entry.optional then [.word "LEFT"] else []) ++
    [.word "JOIN", .word "Media", .word "as"] ++ [.word (aliasName entry.number)] ++
    [.word "ON", .word "m0", .sign ".", .word "id", .sign "="] ++ [.word (aliasName entry.number)] ++
    [.sign ".", .word "id", .word "AND"] ++ [.word (aliasName entry.number)] ++
    [.sign ".", .word "key", .sign "="] ++ [.literal entry.field]

theorem reads (entry : Alias) : Reads isBreak isBreak entry.render entry.tokens := by
  have name := (reads_aliasName entry.number).anywhere
  have operand : Reads startsOperand isBreak (aliasName entry.number) [.word (aliasName entry.number)] :=
    (reads_aliasName entry.number).mono (fun char starts => by simp [startsOperand, isWordPart, starts])
      fun _ breaks => breaks
  have joins : Reads isBreak anything ((if entry.optional then " LEFT" else "") ++ " JOIN Media as ")
      ((if entry.optional then [.word "LEFT"] else []) ++
        [.word "JOIN", .word "Media", .word "as"]) := by
    cases entry.optional with
    | true => exact reads_fixed rfl rfl fun _ _ => rfl
    | false => exact reads_fixed rfl rfl fun _ _ => rfl
  have ons : Reads isBreak startsOperand " ON m0.id="
      [.word "ON", .word "m0", .sign ".", .word "id", .sign "="] :=
    reads_fixed rfl rfl fun _ starts => extend?_of_startsOperand starts (by decide)
  have ands : Reads isBreak anything ".id AND " [.sign ".", .word "id", .word "AND"] :=
    reads_fixed rfl rfl fun _ _ => rfl
  have keys : Reads isBreak startsOperand ".key=" [.sign ".", .word "key", .sign "="] :=
    reads_fixed rfl rfl fun _ starts => extend?_of_startsOperand starts (by decide)
  exact (((((((joins.append name).append ons).append operand).append ands).append name).append keys).append
    (reads_quoteText entry.field))

end Alias

namespace OrderBy

/-- The tokens of the collation and the direction behind the key of an order. -/
def suffix (order : OrderBy) : List Token :=
  (match order.collation with
    | some collation => [.word "COLLATE", .word collation]
    | none => []) ++
  (if order.direction = .descending then [.word "DESC"] else [])

/-- The tokens of a key of an order. -/
def tokens (order : OrderBy) : List Token :=
  match order.key with
  | .id => Column.id.tokens ++ order.suffix
  | .random => [.word "RANDOM", .sign "(", .sign ")"]
  | .value field (some number) => (Column.value number field).tokens ++ order.suffix
  | .value field none =>
      [.sign "(", .word "SELECT", .word "value", .word "FROM", .word "Media", .word "WHERE", .word "id",
        .sign "="] ++ Column.id.tokens ++ [.word "AND", .word "key", .sign "="] ++ [.literal field] ++
        [.sign ")"] ++ order.suffix

/-- Whether values are compared as they are or with case folded. -/
def IsPlain (order : OrderBy) : Prop := order.collation = none ∨ order.collation = some "NOCASE"

theorem continues_suffix {order : OrderBy} (plain : order.IsPlain) :
    Continues
      ((match order.collation with
        | some collation => " COLLATE " ++ collation
        | none => "") ++
      (if order.direction = .descending then " DESC" else "")) order.suffix := by
  refine .append ?_ ?_
  · rcases plain with none | folded
    · rw [none]
      exact .inl ⟨rfl, rfl⟩
    · rw [folded]
      have collates : Reads isBreak isBreak " COLLATE NOCASE" [.word "COLLATE", .word "NOCASE"] :=
        reads_fixed rfl rfl fun _ => extend?_word
      exact .inr collates
  · split
    · exact .inr (reads_fixed rfl rfl fun _ => extend?_word)
    · exact .inl ⟨rfl, rfl⟩

theorem reads {order : OrderBy} (plain : order.IsPlain) :
    Reads anything isBreak order.render order.tokens := by
  have suffix := continues_suffix plain
  have random : Reads anything isBreak "RANDOM()" [.word "RANDOM", .sign "(", .sign ")"] :=
    reads_fixed rfl rfl fun _ _ => rfl
  unfold render tokens
  cases order.key with
  | id => exact Column.id.reads.continued suffix
  | random => exact random
  | value field number =>
      cases number with
      | some number => exact (Column.value number field).reads.continued suffix
      | none =>
          have selects : Reads anything startsOperand
              "(SELECT value FROM Media WHERE id = m0.id AND key="
              ([.sign "(", .word "SELECT", .word "value", .word "FROM", .word "Media", .word "WHERE",
                .word "id", .sign "="] ++ Column.id.tokens ++ [.word "AND", .word "key", .sign "="]) :=
            reads_fixed rfl rfl fun _ starts => extend?_of_startsOperand starts (by decide)
          exact ((selects.append (reads_quoteText field)).append
            (Predicate.reads_close rfl)).continued suffix

end OrderBy

namespace Range

/-- The tokens of a range. -/
def tokens (range : Range) : List Token :=
  .word "LIMIT" ::
    if range.start = 0 ∧ range.length ≠ 0 then [.number (Text.writeUInt64 range.length)]
    else if range.length = 0 then
      [.number (Text.writeUInt64 range.start), .sign ",", .sign "-", .number "1"]
    else [.number (Text.writeUInt64 range.start), .sign ",", .number (Text.writeUInt64 range.length)]

theorem reads (range : Range) : Reads isBreak isBreak range.render range.tokens := by
  have limits : Reads isBreak anything " LIMIT " [.word "LIMIT"] := reads_fixed rfl rfl fun _ _ => rfl
  have written : ∀ number : UInt64, Reads anything isBreak (Text.writeUInt64 number)
      [.number (Text.writeUInt64 number)] := fun number => (reads_writeNat number.toNat).anywhere
  unfold render tokens
  split
  · exact limits.append (written range.length)
  · split
    · have all : Reads isBreak isBreak ",-1" [.sign ",", .sign "-", .number "1"] :=
        reads_fixed rfl rfl fun _ => extend?_number
      exact (limits.append (written range.start)).append all
    · have comma : Reads isBreak anything "," [.sign ","] := reads_fixed rfl rfl fun _ _ => rfl
      exact ((limits.append (written range.start)).append comma).append (written range.length)

end Range

namespace CompiledQuery

/-- The tokens of a query behind its answers. -/
def tail (query : CompiledQuery) : List Token :=
  [.word "FROM", .word "Media", .word "as", .word "m0"] ++ query.joins.flatMap Alias.tokens ++
    [.word "WHERE", .word "m0", .sign ".", .word "key", .sign "="] ++ [.literal query.baseField] ++
    [.word "AND"] ++ query.predicate.tokens ++
    (if query.groupBy.isEmpty then []
      else [.word "GROUP", .word "BY"] ++ [.sign ","].intercalate (query.groupBy.map Column.tokens)) ++
    (if query.orderBy.isEmpty then []
      else [.word "ORDER", .word "BY"] ++ [.sign ","].intercalate (query.orderBy.map OrderBy.tokens)) ++
    query.limit.elim [] Range.tokens

/-- The tokens of the answers: a column for each field, with the field behind it. -/
def answers (query : CompiledQuery) : List Token :=
  if query.fetch.isEmpty then Column.id.tokens ++ [.word "AS", .word "id"]
  else [.sign ","].intercalate (query.fetch.map fun entry =>
    entry.column.tokens ++ [.word "AS"] ++ lex entry.field)

/-- The tokens of a query. -/
def tokens (query : CompiledQuery) : List Token :=
  [.word "SELECT", .word "DISTINCT"] ++ query.answers ++ query.tail

variable {query : CompiledQuery}

theorem continues_list {ι : Type} {opening : String} {opened : List Token} {render : ι → String}
    {tokens : ι → List Token} {items : List ι} (opens : Reads isBreak anything opening opened)
    (each : ∀ item ∈ items, Reads anything isBreak (render item) (tokens item)) :
    Continues (if items.isEmpty then "" else opening ++ ", ".intercalate (items.map render))
      (if items.isEmpty then [] else opened ++ [.sign ","].intercalate (items.map tokens)) := by
  cases items with
  | nil => exact .inl ⟨rfl, rfl⟩
  | cons item rest =>
      have comma : Reads isBreak anything ", " [.sign ","] := reads_fixed rfl rfl fun _ _ => rfl
      exact .inr (opens.append (.intercalate (List.cons_ne_nil _ _) comma each))

/-- A query reads as its tokens if the fields that it fetches stand on their own. -/
theorem lex_sql (conditions : query.conditions = query.predicate.render)
    (plain : ∀ order ∈ query.orderBy, order.IsPlain)
    (alone : ∀ entry ∈ query.fetch, Reads anything isBreak entry.field (lex entry.field)) :
    lex query.sql = query.tokens := by
  have selects : Reads anything anything "SELECT DISTINCT " [.word "SELECT", .word "DISTINCT"] :=
    reads_fixed rfl rfl fun _ _ => rfl
  have answers : Reads anything isBreak
      (if query.fetch.isEmpty then "m0.id AS id"
        else ", ".intercalate (query.fetch.map fun entry =>
          entry.column.render ++ " AS " ++ entry.field)) query.answers := by
    unfold answers
    split
    · exact reads_fixed rfl rfl fun _ => extend?_word
    · next some =>
      have comma : Reads isBreak anything ", " [.sign ","] := reads_fixed rfl rfl fun _ _ => rfl
      have names : Reads isBreak anything " AS " [.word "AS"] := reads_fixed rfl rfl fun _ _ => rfl
      refine .intercalate (by simpa using some) comma fun entry member => ?_
      exact (entry.column.reads.append names).append (alone entry member)
  have tables : Reads isBreak isBreak " FROM Media as m0"
      [.word "FROM", .word "Media", .word "as", .word "m0"] := reads_fixed rfl rfl fun _ => extend?_word
  have joins : Continues (String.join (query.joins.map Alias.render))
      (query.joins.flatMap Alias.tokens) := by
    induction query.joins with
    | nil => exact .inl ⟨rfl, rfl⟩
    | cons entry rest ih =>
        rw [List.map_cons, String.join_cons, List.flatMap_cons]
        exact .append (.inr entry.reads) ih
  have bases : Reads isBreak startsOperand " WHERE m0.key="
      [.word "WHERE", .word "m0", .sign ".", .word "key", .sign "="] :=
    reads_fixed rfl rfl fun _ starts => extend?_of_startsOperand starts (by decide)
  have ands : Reads isBreak anything " AND " [.word "AND"] := reads_fixed rfl rfl fun _ _ => rfl
  have groupings : Reads isBreak anything " GROUP BY " [.word "GROUP", .word "BY"] :=
    reads_fixed rfl rfl fun _ _ => rfl
  have orderings : Reads isBreak anything " ORDER BY " [.word "ORDER", .word "BY"] :=
    reads_fixed rfl rfl fun _ _ => rfl
  have groups := continues_list groupings fun column (_ : column ∈ query.groupBy) => column.reads
  have orders := continues_list orderings fun order member => OrderBy.reads (plain order member)
  have limits : Continues (query.limit.elim "" Range.render) (query.limit.elim [] Range.tokens) := by
    cases query.limit with
    | none => exact .inl ⟨rfl, rfl⟩
    | some range => exact .inr range.reads
  have whole := ((((((((selects.append answers).append tables).continued joins).append bases).append
    (reads_quoteText query.baseField)).append ands).append query.predicate.reads).continued
    groups).continued orders |>.continued limits
  rw [← conditions] at whole
  refine whole.lex.trans ?_
  simp only [tokens, tail, List.append_assoc]

end CompiledQuery

end Medley
