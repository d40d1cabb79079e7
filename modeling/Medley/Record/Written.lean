import Medley.Tree.Basic
import Medley.Text.Integer

/-!
# The written form of a collection

A record is a nested form `(kind ["key":"value" …] [id …] operand …)`.  Attributes are written in
the order of their keys; in their texts a double quote or a backslash stands behind a backslash.
The operands of a reference are not data and are left out.
-/

namespace Medley.Record

/-- A text with a backslash before every double quote and backslash. -/
def escape : List Char → List Char
  | [] => []
  | char :: rest =>
      if char = '"' ∨ char = '\\' then '\\' :: char :: escape rest else char :: escape rest

/-- A text in double quotes. -/
def quoted (text : List Char) : List Char := '"' :: (escape text ++ ['"'])

/-- An attribute: key and value in quotes, with a colon between them. -/
def attributeText (entry : String × String) : List Char :=
  quoted entry.1.toList ++ ':' :: quoted entry.2.toList

/-- Pieces with one space between neighbours. -/
def spaced (pieces : List (List Char)) : List Char := [' '].intercalate pieces

/-- A record from its kind, attributes, ids and the records of its operands. -/
def form (operator : Operator) (operands : List (List Char)) : List Char :=
  '(' :: (operator.kind.name.toList ++
    (' ' :: '[' :: (spaced (operator.attributes.entries.map attributeText) ++
    (']' :: ' ' :: '[' :: (spaced (operator.ids.map fun id => Text.writeInteger id.toInt) ++
    (']' :: (operands.flatMap (' ' :: ·) ++ [')'])))))))

/-- The characters of the record of a tree. -/
def chars {α : Type} : Tree α → List Char :=
  Tree.fold fun _ operator operands =>
    form operator (if operator.kind = .reference then [] else operands.map Prod.snd)

/-- The record of a tree. -/
def write {α : Type} (tree : Tree α) : String := String.ofList (chars tree)

theorem chars_node {α : Type} (mark : α) (operator : Operator) (operands : List (Tree α)) :
    chars (.node mark operator operands) =
      form operator (if operator.kind = .reference then [] else operands.map chars) := by
  simp only [chars, Tree.fold_node, List.map_map]
  rfl

end Medley.Record
