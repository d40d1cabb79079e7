import Medley.Text.Integer

/-!
# Predicates over media

The condition of a query: a Boolean combination of tests on the id and the properties of a medium.
`Predicate.render` writes it as an SQL condition on the table of properties.
-/

namespace Medley

/-- A value that a predicate looks at: the id, or the property that an alias joins. -/
inductive Column where
  | id
  | value (number : Nat) (field : String)
  deriving DecidableEq, Repr

/-- What a column is compared with. -/
inductive Literal where
  | integer (value : Int64)
  | text (value : String)
  deriving DecidableEq, Repr

/-- How a column is compared. -/
inductive Comparison where
  | equals
  | notEqual
  | smaller
  | smallerEq
  | greater
  | greaterEq
  /-- A pattern in which a percent sign stands for any run of characters and an underscore for one;
  upper and lower case are the same. -/
  | like
  /-- A pattern in which a star stands for any run of characters and a question mark for one. -/
  | glob
  deriving DecidableEq, Repr

/-- The condition that media of a query fulfil. -/
inductive Predicate where
  | always
  | never
  | all (operands : List Predicate)
  | any (operands : List Predicate)
  | not (operand : Predicate)
  | compare (column : Column) (test : Comparison) (literal : Literal) (caseSensitive : Bool)
  | has (column : Column)
  | inIds (ids : List Int64)

/-- A text as an SQL literal: in single quotes, a quote inside written twice. -/
def quoteText (text : String) : String :=
  String.ofList ('\'' :: (text.toList.flatMap (fun char =>
    if char = '\'' then ['\'', '\''] else [char]) ++ ['\'']))

/-- The name of a table alias. -/
def aliasName (number : Nat) : String := "m" ++ Text.writeNat number

/-- A column in SQL. -/
def Column.render : Column → String
  | .id => "m0.id"
  | .value number _ => aliasName number ++ ".value"

/-- A literal in SQL. -/
def Literal.render : Literal → String
  | .integer value => Text.writeInt64 value
  | .text value => quoteText value

/-- The text of a literal. -/
def Literal.toText : Literal → String
  | .integer value => Text.writeInt64 value
  | .text value => value

/-- The sign of a comparison in SQL. -/
def Comparison.symbol : Comparison → String
  | .equals => "="
  | .notEqual => "<>"
  | .smaller => "<"
  | .smallerEq => "<="
  | .greater => ">"
  | .greaterEq => ">="
  | .like => " LIKE "
  | .glob => " GLOB "

/-- Whether SQL is asked to take upper and lower case as the same: in every `LIKE`, and in
comparisons for equality with a text, unless case matters. -/
def foldsCase (test : Comparison) (literal : Literal) (caseSensitive : Bool) : Bool :=
  match test, literal with
  | .equals, .text _ => !caseSensitive
  | .notEqual, .text _ => !caseSensitive
  | .like, _ => true
  | _, _ => false

namespace Predicate

/-- A test of a column in SQL. -/
def renderTest (column : Column) (test : Comparison) (literal : Literal) (caseSensitive : Bool) :
    String :=
  let left := if foldsCase test literal caseSensitive then
    "(" ++ column.render ++ " COLLATE NOCASE)" else column.render
  "(" ++ left ++ test.symbol ++ literal.render ++ ")"

mutual

/-- A predicate as an SQL condition. -/
def render : Predicate → String
  | always => "1"
  | never => "0"
  | all operands => "(" ++ " AND ".intercalate (renderEach operands) ++ ")"
  | any operands => "(" ++ " OR ".intercalate (renderEach operands) ++ ")"
  | not operand => "NOT " ++ render operand
  | compare column test literal caseSensitive => renderTest column test literal caseSensitive
  | has column => "(" ++ column.render ++ " is not null)"
  | inIds ids => "m0.id IN (" ++ ",".intercalate (ids.map Text.writeInt64) ++ ")"

/-- Every predicate of a list as an SQL condition. -/
def renderEach : List Predicate → List String
  | [] => []
  | operand :: rest => render operand :: renderEach rest

end

theorem renderEach_eq_map (operands : List Predicate) :
    renderEach operands = operands.map render := by
  induction operands with
  | nil => rfl
  | cons operand rest ih => simp [renderEach, ih]

/-- Induction over a predicate and all predicates inside it. -/
theorem induction {motive : Predicate → Prop} (always : motive .always) (never : motive .never)
    (all : ∀ operands, (∀ operand ∈ operands, motive operand) → motive (.all operands))
    (any : ∀ operands, (∀ operand ∈ operands, motive operand) → motive (.any operands))
    (not : ∀ operand, motive operand → motive (.not operand))
    (compare : ∀ column test literal caseSensitive,
      motive (.compare column test literal caseSensitive))
    (has : ∀ column, motive (.has column)) (inIds : ∀ ids, motive (.inIds ids))
    (predicate : Predicate) : motive predicate :=
  @Predicate.rec motive (fun operands => ∀ operand ∈ operands, motive operand)
    always never all any not compare has inIds
    (fun _ member => nomatch member)
    (fun _ _ headHolds restHold operand member => by
      rcases List.mem_cons.1 member with here | there
      · exact here ▸ headHolds
      · exact restHold operand there)
    predicate

end Predicate

end Medley
