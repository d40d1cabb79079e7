import Medley.Query.Compiled
import Medley.Registry.State

/-!
# From collections to queries

A collection becomes a predicate over media.  Compiling registers every field it touches in an alias
table: the first field that a filter needs is the base, others are joined, and what is only fetched,
grouped by or tested for presence stays optional.  References are replaced by the predicate of the
collection that they lead to.  Order and limit operators at the root become part of the request;
elsewhere they do not matter.
-/

namespace Medley

/-- What a request asks for beside the collection itself. -/
structure QueryParams where
  /-- The fields to answer with. -/
  fetch : List String := []
  /-- Order entries: a field, a field after a minus sign, `id` or `random`. -/
  order : List String := []
  group : List String := []
  start : UInt64 := 0
  /-- How many media to answer with; zero for all. -/
  length : UInt64 := 0
  deriving DecidableEq, Repr

/-- The fields that a query has touched so far. -/
structure AliasTable where
  /-- The base field of a query in which no filter provides one. -/
  defaultBase : String
  aliases : List Alias := []
  /-- The number of the next joined alias. -/
  next : Nat := 1
  base : Option String := none

namespace AliasTable

/-- The alias of a field. -/
def find? (table : AliasTable) (field : String) : Option Alias :=
  table.aliases.find? fun entry => entry.field == field

/-- The column of a field; that of the id if the field has no alias. -/
def column (table : AliasTable) (field : String) : Column :=
  ((table.find? field).map Alias.column).getD .id

/-- The table with the alias of a field no longer optional. -/
def require (table : AliasTable) (field : String) : AliasTable :=
  { table with aliases := table.aliases.map fun entry =>
      if entry.field = field then { entry with optional := false } else entry }

/-- The table with a new alias behind the others. -/
def push (table : AliasTable) (entry : Alias) : AliasTable :=
  { table with aliases := table.aliases ++ [entry] }

/-- Register a field, or use the alias it has.  A field first registered as optional becomes
mandatory once a filter needs it.  The base is the first mandatory field, or the default base
however it is registered first. -/
def register (table : AliasTable) (field : String) (optional : Bool) : Column × AliasTable :=
  match table.find? field with
  | some entry => (entry.column, if optional then table else table.require field)
  | none =>
      if field = "id" then
        (.id, table.push { field, number := 0, kind := .id, optional })
      else if table.base = none ∧ (optional = false ∨ field = table.defaultBase) then
        (.value 0 field,
          { table with base := some field }.push
            { field, number := 0, kind := .property, optional })
      else
        (.value table.next field,
          { table with next := table.next + 1 }.push
            { field, number := table.next, kind := .property, optional })

/-- Register fields one after the other as optional. -/
def registerAll (table : AliasTable) (fields : List String) : AliasTable :=
  fields.foldl (fun table field => (table.register field true).2) table

/-- The table with a base: the default one if no field has become it. -/
def withBase (table : AliasTable) : AliasTable :=
  if table.base = none then (table.register table.defaultBase false).2 else table

/-- An order key.  Only a property that is already joined is taken from its alias. -/
def orderBy (table : AliasTable) (field : SortField) (direction : Direction) : OrderBy :=
  match field with
  | .id => ⟨.id, direction, none⟩
  | .random => ⟨.random, direction, none⟩
  | .property name =>
      let entry := table.aliases.find? fun entry =>
        entry.field == name && entry.kind == .property
      ⟨.value name (entry.map Alias.number), direction, some "NOCASE"⟩

end AliasTable

/-- What an order entry of a request asks for. -/
def readOrder (entry : String) : SortField × Direction :=
  let (direction, key) := match entry.toList with
    | '-' :: rest => (Direction.descending, String.ofList rest)
    | _ => (.ascending, entry)
  match key with
  | "id" => (.id, direction)
  | "random" => (.random, direction)
  | field => (.property field, direction)

/-- Computations over an alias table that may fail. -/
abbrev Compiling := StateT AliasTable (Except Error)

/-- Register a field. -/
def Compiling.register (field : String) (optional : Bool) : Compiling Column := fun table =>
  .ok (table.register field optional)

/-- The comparison that a filter makes, and what it compares with. -/
def filterLiteral (operator : Operator) (test : FilterTest) (column : Column) (value : String)
    (caseSensitive : Bool) : Except Error (Comparison × Literal) :=
  let equality : Literal :=
    match column, Text.readInt64? value with
    | .id, some number => .integer number
    | _, _ => .text value
  let magnitude (comparison : Comparison) : Except Error (Comparison × Literal) :=
    match Text.readInt64? value with
    | some number => .ok (comparison, .integer number)
    | none => operator.badValue Key.value value
  match test with
  | .equals => .ok (.equals, equality)
  | .notEqual => .ok (.notEqual, equality)
  | .smaller => magnitude .smaller
  | .smallerEq => magnitude .smallerEq
  | .greater => magnitude .greater
  | .greaterEq => magnitude .greaterEq
  | .pattern =>
      if caseSensitive then .ok (.glob, .text value)
      else .ok (.like, .text (value.map fun char =>
        if char = '*' then '%' else if char = '?' then '_' else char))
  | .token => .ok (.like, .text ("%" ++ value ++ "%"))

/-- Whether a tree is the whole library, so that a filter over it needs no operand. -/
def Tree.isEverything {α : Type} (tree : Tree α) : Bool :=
  match tree.kind with
  | .universe => true
  | .reference => tree.attribute? Key.reference == some allMedia
  | _ => false

/-- A filter together with its operand. -/
def withOperand (filter : Predicate) (operand : Node × Compiling Predicate) :
    Compiling Predicate := do
  if operand.1.isEverything then return filter
  else return .all [filter, ← operand.2]

/-- The predicate of a collection, given the predicates of the references in it. -/
def lower (onReference : Option Handle → Address → Compiling Predicate) :
    Node → Compiling Predicate :=
  Tree.fold fun mark operator operands => do
    match ← (operator.view operands : Except Error _) with
    | .reference name space =>
        if name = allMedia then return .always
        else onReference mark.link ⟨← Namespace.read (space.getD ""), name⟩
    | .universe => return .always
    | .union operands => return .any (← operands.mapM Prod.snd)
    | .intersection operands => return .all (← operands.mapM Prod.snd)
    | .complement operand => return .not (← operand.2)
    | .mediaset operand => operand.2
    | .order _ _ operand => operand.2
    | .limit _ _ operand => operand.2
    | .has field operand => withOperand (.has (← Compiling.register field true)) operand
    | .filter test field value caseSensitive operand =>
        let column ← Compiling.register field.name false
        let (comparison, literal) ← (filterLiteral operator test column value caseSensitive)
        withOperand (.compare column comparison literal caseSensitive) operand
    | .list _ ids _ => return if ids.isEmpty then .never else .inIds ids

namespace State

/-- The predicate of a collection, with references followed a limited number of times.  The handles
are those of the collections that are being compiled: to meet one again is a cycle. -/
def predicateWithin (state : State) : Nat → List Handle → Node → Compiling Predicate
  | 0, _ => lower fun _ address => throw { cause := .cyclicReference address.name address.space.name }
  | budget + 1, visiting => lower fun link address =>
      match state.follow link address with
      | none => throw { cause := .danglingReference address.name address.space.name }
      | some handle =>
          if handle ∈ visiting then
            throw { cause := .cyclicReference address.name address.space.name }
          else match state.resolve handle with
            | none => throw { cause := .danglingReference address.name address.space.name }
            | some target => state.predicateWithin budget (handle :: visiting) target

/-- The predicate of a collection.  A path of references enters every slot at most once, so one more
than their number is enough. -/
def predicate (state : State) : Node → Compiling Predicate :=
  state.predicateWithin (state.slots.length + 1) []

end State

/-- A collection without the order and limit operators at its root. -/
structure Peeled where
  orders : List (SortField × Direction)
  limit : Option Range
  root : Node

/-- Take the order and limit operators off the root.  Orders are kept from the outside in, and of
several limits the outermost. -/
def Tree.peel : Node → Except Error Peeled :=
  fold fun mark operator operands => do
    match ← operator.view operands with
    | .order field direction operand =>
        let inner ← operand.2
        return { inner with orders := (field, direction) :: inner.orders }
    | .limit start length operand =>
        let inner ← operand.2
        return { inner with limit := some ⟨start, length⟩ }
    | _ => return ⟨[], none, .node mark operator (operands.map Prod.fst)⟩

/-- The range of a query: that of the request if it has one, else that of the collection. -/
def queryRange (params : QueryParams) (limit : Option Range) : Option Range :=
  if params.start ≠ 0 ∨ params.length ≠ 0 then some ⟨params.start, params.length⟩
  else limit.filter fun range => range.start != 0 || range.length != 0

/-- Compile a collection into a query with a given default base field. -/
def State.compile (state : State) (defaultBase : String) (tree : Node) (params : QueryParams) :
    Except Error CompiledQuery := do
  let peeled ← tree.peel
  let (predicate, table) ← (state.predicate peeled.root).run { defaultBase }
  let table := ((table.registerAll params.group).registerAll params.fetch).withBase
  return {
    predicate
    conditions := predicate.render
    aliases := table.aliases
    baseField := table.base.getD ""
    fetch := params.fetch.map fun field => { field, column := table.column field }
    groupBy := params.group.map table.column
    orderBy := (peeled.orders ++ params.order.map readOrder).map fun (field, direction) =>
      table.orderBy field direction
    limit := queryRange params peeled.limit }

end Medley
