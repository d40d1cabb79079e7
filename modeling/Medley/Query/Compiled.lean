import Medley.Kind
import Medley.Query.Predicate

/-!
# Compiled queries

What a media library is asked: a predicate, the properties that it joins, and how the media found
are grouped, ordered and cut.  The properties of media stand in one table `Media(id, key, value)`;
every property that a query touches has an alias of that table, and alias zero is the one that the
others join.  `CompiledQuery.sql` is the query in SQL.
-/

namespace Medley

/-- What an alias stands for: the id of a medium or one of its properties. -/
inductive AliasKind where
  | id
  | property
  deriving DecidableEq, Repr

/-- A field that a query touches. -/
structure Alias where
  field : String
  /-- The number of the table alias; zero for the base and for the id. -/
  number : Nat
  kind : AliasKind
  /-- Whether media without the property still count. -/
  optional : Bool
  deriving DecidableEq, Repr

namespace Alias

/-- The column that an alias gives. -/
def column (entry : Alias) : Column :=
  match entry.kind with
  | .id => .id
  | .property => .value entry.number entry.field

/-- Whether an alias is joined to the base. -/
def isJoin (entry : Alias) : Bool := entry.kind == .property && entry.number != 0

end Alias

/-- What media are ordered by. -/
inductive SortKey where
  | id
  | random
  /-- The value of a property, joined by an alias or else looked up on its own. -/
  | value (field : String) (number : Option Nat)
  deriving DecidableEq, Repr

/-- One key of an order. -/
structure OrderBy where
  key : SortKey
  direction : Direction
  /-- The collation that values are compared with. -/
  collation : Option String
  deriving DecidableEq, Repr

/-- A field of the answer and the column that it comes from. -/
structure FetchField where
  field : String
  column : Column
  deriving DecidableEq, Repr

/-- A range of the media found; a length of zero means to the end. -/
structure Range where
  start : UInt64
  length : UInt64
  deriving DecidableEq, Repr

/-- A query as it is handed to a media library. -/
structure CompiledQuery where
  predicate : Predicate
  /-- The predicate as an SQL condition. -/
  conditions : String
  /-- The fields in the order of their first use. -/
  aliases : List Alias
  baseField : String
  fetch : List FetchField
  groupBy : List Column
  orderBy : List OrderBy
  limit : Option Range

/-- One key of an order in SQL. -/
def OrderBy.render (order : OrderBy) : String :=
  let tail :=
    (match order.collation with
      | some collation => " COLLATE " ++ collation
      | none => "") ++
    (if order.direction = .descending then " DESC" else "")
  match order.key with
  | .id => "m0.id" ++ tail
  | .random => "RANDOM()"
  | .value _ (some number) => aliasName number ++ ".value" ++ tail
  | .value field none =>
      "(SELECT value FROM Media WHERE id = m0.id AND key=" ++ quoteText field ++ ")" ++ tail

/-- A joined alias in SQL. -/
def Alias.render (entry : Alias) : String :=
  let name := aliasName entry.number
  (if entry.optional then " LEFT" else "") ++ " JOIN Media as " ++ name ++ " ON m0.id=" ++ name ++
    ".id AND " ++ name ++ ".key=" ++ quoteText entry.field

/-- A range in SQL. -/
def Range.render (range : Range) : String :=
  if range.start = 0 ∧ range.length ≠ 0 then " LIMIT " ++ Text.writeUInt64 range.length
  else if range.length = 0 then " LIMIT " ++ Text.writeUInt64 range.start ++ ",-1"
  else " LIMIT " ++ Text.writeUInt64 range.start ++ "," ++ Text.writeUInt64 range.length

namespace CompiledQuery

/-- The aliases that are joined to the base. -/
def joins (query : CompiledQuery) : List Alias := query.aliases.filter Alias.isJoin

/-- The query in SQL. -/
def sql (query : CompiledQuery) : String :=
  "SELECT DISTINCT " ++
  (if query.fetch.isEmpty then "m0.id AS id"
    else ", ".intercalate (query.fetch.map fun entry =>
      entry.column.render ++ " AS " ++ entry.field)) ++
  " FROM Media as m0" ++
  String.join (query.joins.map Alias.render) ++
  " WHERE m0.key=" ++ quoteText query.baseField ++ " AND " ++ query.conditions ++
  (if query.groupBy.isEmpty then ""
    else " GROUP BY " ++ ", ".intercalate (query.groupBy.map Column.render)) ++
  (if query.orderBy.isEmpty then ""
    else " ORDER BY " ++ ", ".intercalate (query.orderBy.map OrderBy.render)) ++
  (query.limit.elim "" Range.render)

end CompiledQuery

end Medley
