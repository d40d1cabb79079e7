import Medley.Json.Basic
import Medley.Media.Value
import Medley.Query.Compiled

/-!
# Queries as JSON

The form in which a compiled query is handed to a media library outside the program, and rows come
back: JSON values.  A variant with parameters is an object with the name of the variant as its only
key.
-/

namespace Medley

namespace Json

/-- A variant with parameters. -/
def ofVariant (name : String) (value : Json) : Json := ofMembers [(name, value)]

/-- The natural number that a value is. -/
def toNat? (value : Json) : Option Nat := value.toInteger?.bind Int.toNat?

/-- The media id that a value is. -/
def toInt64? (value : Json) : Option Int64 := do
  let number ← value.toInteger?
  if Int64.minValue.toInt ≤ number ∧ number ≤ Int64.maxValue.toInt then
    return Int64.ofInt number
  else none

/-- A media id. -/
def ofInt64 (value : Int64) : Json := ofInteger value.toInt

/-- The member of an object with a key, read in some way. -/
def read? {α : Type} (value : Json) (key : String) (read : Json → Option α) : Option α :=
  (value.member? key).bind read

/-- The list that a value is, with its items read in some way. -/
def readList? {α : Type} (read : Json → Option α) (value : Json) : Option (List α) := do
  (← value.toList?).mapM read

end Json

namespace Value

/-- A property value: a number or a text. -/
def toJson : Value → Json
  | integer value => Json.ofInt64 value
  | text value => Json.ofText value

/-- The property value that a JSON value is. -/
def ofJson? (value : Json) : Option Value :=
  (value.toInt64?.map integer).or (value.toText?.map text)

end Value

/-- A row, or the properties of a medium. -/
def Row.toJson (row : Row) : Json :=
  Json.ofMembers (row.entries.map fun (field, value) => (field, value.toJson))

/-- The row that a JSON object is. -/
def Row.ofJson? : Json → Option Row
  | .object members => do
      let entries ← members.mapM fun (key, value) => do
        return (← Json.textOf? key, ← Value.ofJson? value)
      return SortedMap.ofList entries
  | _ => none

namespace Column

/-- A column. -/
def toJson : Column → Json
  | id => Json.ofText "Id"
  | value number field =>
      Json.ofVariant "Value" (Json.ofMembers
        [("alias", Json.ofInteger number), ("field", Json.ofText field)])

/-- The column that a JSON value is. -/
def ofJson? (json : Json) : Option Column :=
  if json.toText? = some "Id" then some id
  else do
    let json ← json.member? "Value"
    return value (← json.read? "alias" Json.toNat?) (← json.read? "field" Json.toText?)

end Column

namespace Literal

/-- A literal. -/
def toJson : Literal → Json
  | integer value => Json.ofVariant "Integer" (Json.ofInt64 value)
  | text value => Json.ofVariant "Text" (Json.ofText value)

/-- The literal that a JSON value is. -/
def ofJson? (json : Json) : Option Literal :=
  ((json.read? "Integer" Json.toInt64?).map integer).or ((json.read? "Text" Json.toText?).map text)

end Literal

namespace Comparison

/-- All comparisons. -/
def all : List Comparison :=
  [.equals, .notEqual, .smaller, .smallerEq, .greater, .greaterEq, .like, .glob]

/-- The name of a comparison. -/
def name : Comparison → String
  | .equals => "Equals"
  | .notEqual => "NotEqual"
  | .smaller => "Smaller"
  | .smallerEq => "SmallerEq"
  | .greater => "Greater"
  | .greaterEq => "GreaterEq"
  | .like => "Like"
  | .glob => "Glob"

/-- The comparison that a name stands for. -/
def ofName? (name : String) : Option Comparison := all.find? fun test => test.name == name

@[simp] theorem ofName?_name (test : Comparison) : ofName? test.name = some test := by
  cases test <;> decide

end Comparison

namespace Predicate

mutual

/-- A predicate. -/
def toJson : Predicate → Json
  | always => Json.ofText "True"
  | never => Json.ofText "False"
  | all operands => Json.ofVariant "And" (.list (toJsonEach operands))
  | any operands => Json.ofVariant "Or" (.list (toJsonEach operands))
  | not operand => Json.ofVariant "Not" (toJson operand)
  | has column => Json.ofVariant "Has" column.toJson
  | inIds ids => Json.ofVariant "InIds" (.list (ids.map Json.ofInt64))
  | compare column test literal caseSensitive =>
      Json.ofVariant "Compare" (Json.ofMembers
        [("column", column.toJson), ("op", Json.ofText test.name), ("value", literal.toJson),
          ("case_sensitive", .bool caseSensitive)])

/-- Every predicate of a list. -/
def toJsonEach : List Predicate → List Json
  | [] => []
  | operand :: rest => toJson operand :: toJsonEach rest

end

/-- The predicate that a comparison is. -/
def compareOfJson? (json : Json) : Option Predicate := do
  let test ← (← json.read? "op" Json.toText?) |> Comparison.ofName?
  return compare (← json.read? "column" Column.ofJson?) test (← json.read? "value" Literal.ofJson?)
    (← json.read? "case_sensitive" Json.toBool?)

/-- The predicate that a variant with parameters is, with operands read in a given way. -/
def ofVariant? (operand : Json → Option Predicate) (name : String) (value : Json) :
    Option Predicate :=
  match name with
  | "And" => (value.readList? operand).map all
  | "Or" => (value.readList? operand).map any
  | "Not" => (operand value).map not
  | "Has" => (Column.ofJson? value).map has
  | "InIds" => (value.readList? Json.toInt64?).map inIds
  | "Compare" => compareOfJson? value
  | _ => none

/-- The predicate that a JSON value is, if it nests no deeper than a given number of levels. -/
def ofJsonWithin? : Nat → Json → Option Predicate
  | 0, _ => none
  | depth + 1, json =>
      match json with
      | .object [(key, value)] => do
          ofVariant? (ofJsonWithin? depth) (← Json.textOf? key) value
      | json =>
          match json.toText? with
          | some "True" => some always
          | some "False" => some never
          | _ => none

end Predicate

namespace Json

mutual

/-- How deep lists and objects nest in a value. -/
def depth : Json → Nat
  | .list items => depthEach items + 1
  | .object members => depthMembers members + 1
  | _ => 1

/-- How deep lists and objects nest in some values. -/
def depthEach : List Json → Nat
  | [] => 0
  | item :: rest => max (depth item) (depthEach rest)

/-- How deep lists and objects nest in some members. -/
def depthMembers : List (List Nat × Json) → Nat
  | [] => 0
  | (_, value) :: rest => max (depth value) (depthMembers rest)

end

end Json

/-- The predicate that a JSON value is. -/
def Predicate.ofJson? (json : Json) : Option Predicate := ofJsonWithin? json.depth json

/-- The name of a direction. -/
def Direction.name : Direction → String
  | .ascending => "Ascending"
  | .descending => "Descending"

/-- The direction that a JSON value is. -/
def Direction.ofJson? (json : Json) : Option Direction := do
  match ← json.toText? with
  | "Ascending" => some .ascending
  | "Descending" => some .descending
  | _ => none

namespace SortKey

/-- A sort key. -/
def toJson : SortKey → Json
  | id => Json.ofText "Id"
  | random => Json.ofText "Random"
  | value field number =>
      Json.ofVariant "Value" (Json.ofMembers
        [("field", Json.ofText field), ("alias", Json.ofOption (Json.ofInteger ·) number)])

/-- The sort key that a JSON value is. -/
def ofJson? (json : Json) : Option SortKey :=
  match json.toText? with
  | some "Id" => some id
  | some "Random" => some random
  | some _ => none
  | none => do
      let json ← json.member? "Value"
      return value (← json.read? "field" Json.toText?)
        (← json.read? "alias" (Json.toOption? Json.toNat?))

end SortKey

namespace Alias

/-- An alias. -/
def toJson (entry : Alias) : Json := Json.ofMembers [
  ("field", Json.ofText entry.field),
  ("id", Json.ofInteger entry.number),
  ("kind", Json.ofText (if entry.kind = .id then "Id" else "Property")),
  ("optional", .bool entry.optional)]

/-- The alias that a JSON value is. -/
def ofJson? (json : Json) : Option Alias := do
  let kind ← match ← json.read? "kind" Json.toText? with
    | "Id" => some AliasKind.id
    | "Property" => some .property
    | _ => none
  return {
    field := ← json.read? "field" Json.toText?
    number := ← json.read? "id" Json.toNat?
    kind
    optional := ← json.read? "optional" Json.toBool? }

end Alias

namespace OrderBy

/-- One key of an order. -/
def toJson (order : OrderBy) : Json := Json.ofMembers [
  ("key", order.key.toJson),
  ("direction", Json.ofText order.direction.name),
  ("collation", Json.ofOption Json.ofText order.collation)]

/-- The key of an order that a JSON value is. -/
def ofJson? (json : Json) : Option OrderBy := do
  return {
    key := ← json.read? "key" SortKey.ofJson?
    direction := ← json.read? "direction" Direction.ofJson?
    collation := ← json.read? "collation" (Json.toOption? Json.toText?) }

end OrderBy

namespace Range

/-- A range. -/
def toJson (range : Range) : Json := Json.ofMembers
  [("start", Json.ofInteger range.start.toNat), ("length", Json.ofInteger range.length.toNat)]

/-- The range that a JSON value is. -/
def ofJson? (json : Json) : Option Range := do
  return {
    start := UInt64.ofNat (← json.read? "start" Json.toNat?)
    length := UInt64.ofNat (← json.read? "length" Json.toNat?) }

end Range

namespace CompiledQuery

/-- A compiled query. -/
def toJson (query : CompiledQuery) : Json := Json.ofMembers [
  ("predicate", query.predicate.toJson),
  ("conditions", Json.ofText query.conditions),
  ("aliases", .list (query.aliases.map Alias.toJson)),
  ("base_field", Json.ofText query.baseField),
  ("fetch", .list (query.fetch.map fun entry => Json.ofMembers
    [("field", Json.ofText entry.field), ("column", entry.column.toJson)])),
  ("group_by", .list (query.groupBy.map Column.toJson)),
  ("order_by", .list (query.orderBy.map OrderBy.toJson)),
  ("limit", Json.ofOption Range.toJson query.limit)]

/-- The field to fetch that a JSON value is. -/
def fetchOfJson? (json : Json) : Option FetchField := do
  return {
    field := ← json.read? "field" Json.toText?
    column := ← json.read? "column" Column.ofJson? }

/-- The compiled query that a JSON value is. -/
def ofJson? (json : Json) : Option CompiledQuery := do
  return {
    predicate := ← json.read? "predicate" Predicate.ofJson?
    conditions := ← json.read? "conditions" Json.toText?
    aliases := ← json.read? "aliases" (Json.readList? Alias.ofJson?)
    baseField := ← json.read? "base_field" Json.toText?
    fetch := ← json.read? "fetch" (Json.readList? fetchOfJson?)
    groupBy := ← json.read? "group_by" (Json.readList? Column.ofJson?)
    orderBy := ← json.read? "order_by" (Json.readList? OrderBy.ofJson?)
    limit := ← json.read? "limit" (Json.toOption? Range.ofJson?) }

end CompiledQuery

end Medley
