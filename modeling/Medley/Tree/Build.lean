import Medley.Tree.View

/-!
# Building collections

The usual ways to make a collection: leaves, filters over an operand, and the order and limit
operators that a request puts around a collection.
-/

namespace Medley

namespace Operator

/-- An operator with the given attributes; a later entry replaces an earlier one. -/
def withAttributes (kind : Kind) (attributes : List (String × String)) : Operator :=
  { kind, attributes := SortedMap.ofList attributes }

theorem get?_withAttributes (kind : Kind) (first second : String × String) (key : String) :
    (withAttributes kind [first, second]).attributes.get? key =
      if key = second.1 then some second.2
      else if key = first.1 then some first.2 else none := by
  simp [withAttributes, SortedMap.ofList, SortedMap.get?_insert]

/-- The operator with an attribute set. -/
def setAttribute (operator : Operator) (key value : String) : Operator :=
  { operator with attributes := operator.attributes.insert key value }

/-- The attributes of an order entry: a field, a field after a minus sign for descending order,
`id` or `random`. -/
def orderEntry (entry : String) : Operator :=
  let (direction, key) := match entry.toList with
    | '-' :: rest => ("DESC", String.ofList rest)
    | _ => ("ASC", entry)
  match key with
  | "random" => withAttributes .order [(Key.type, "random")]
  | "id" => withAttributes .order [(Key.type, "id"), (Key.direction, direction)]
  | field =>
      withAttributes .order
        [(Key.type, "value"), (Key.field, field), (Key.direction, direction)]

/-- The limit operator of a range; a bound of zero is left out. -/
def limitRange (start length : UInt64) : Operator :=
  withAttributes .limit <|
    (if start = 0 then [] else [(Key.start, Text.writeUInt64 start)]) ++
    (if length = 0 then [] else [(Key.length, Text.writeUInt64 length)])

end Operator

namespace Tree

variable {α : Type}

/-- A tree of one node. -/
def leaf (mark : α) (operator : Operator) : Tree α := .node mark operator []

/-- A node over one operand. -/
def unary (mark : α) (operator : Operator) (operand : Tree α) : Tree α :=
  .node mark operator [operand]

/-- The whole library. -/
def everything (mark : α) : Tree α := leaf mark { kind := .universe }

/-- A reference to a stored collection, or to the whole library, which needs no namespace. -/
def reference (mark : α) (name space : String) : Tree α :=
  leaf mark <| .withAttributes .reference <|
    (Key.reference, name) :: if name = allMedia then [] else [(Key.space, space)]

/-- The media of an operand that have a property. -/
def has (mark : α) (field : String) (operand : Tree α) : Tree α :=
  unary mark (.withAttributes .has [(Key.field, field)]) operand

/-- A node of any kind with a field and a value, over an operand. -/
def filter (mark : α) (kind : Kind) (field value : String) (operand : Tree α) : Tree α :=
  unary mark (.withAttributes kind [(Key.field, field), (Key.value, value)]) operand

/-- The tree in the order of one entry. -/
def ordered (mark : α) (entry : String) (operand : Tree α) : Tree α :=
  unary mark (.orderEntry entry) operand

/-- The tree cut to a range, unless both bounds are zero. -/
def limited (mark : α) (start length : UInt64) (operand : Tree α) : Tree α :=
  if start = 0 ∧ length = 0 then operand else unary mark (.limitRange start length) operand

end Tree

end Medley
