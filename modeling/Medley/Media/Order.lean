import Medley.Media.Evaluation
import Medley.Query.Compiled
import Medley.Text.Lowercase

/-!
# The order of media

Media are ordered by several keys, of which a later one decides where the earlier ones do not.
Values that both hold integers compare as integers, others as texts.  Media without the property
come last in either direction.
-/

namespace Medley

/-- Compare two values; a collation that ignores case compares texts in lower case. -/
def Value.order (ignoresCase : Bool) (left right : Value) : Ordering :=
  match left.toInteger?, right.toInteger? with
  | some left, some right => Ord.compare left right
  | _, _ =>
      if ignoresCase then
        Ord.compare (Text.lowercase left.toText) (Text.lowercase right.toText)
      else Ord.compare left.toText right.toText

/-- An order in a direction. -/
def Direction.apply : Direction → Ordering → Ordering
  | .ascending, ordering => ordering
  | .descending, ordering => ordering.swap

namespace OrderBy

/-- Compare two media by one key.  Nothing is before anything else in a random order. -/
def compare (order : OrderBy) (left right : Medium) : Ordering :=
  match order.key with
  | .random => .eq
  | .id => order.direction.apply (Ord.compare left.id right.id)
  | .value field _ =>
      match left.properties.get? field, right.properties.get? field with
      | some left, some right =>
          order.direction.apply (Value.order (order.collation == some "NOCASE") left right)
      | some _, none => .lt
      | none, some _ => .gt
      | none, none => .eq

/-- Compare two media by several keys. -/
def compareAll (orders : List OrderBy) (left right : Medium) : Ordering :=
  orders.foldr (fun order later => (order.compare left right).then later) .eq

/-- Media in the order of several keys; media that no key tells apart stay as they are. -/
def sort (orders : List OrderBy) (media : List Medium) : List Medium :=
  media.mergeSort fun left right => (compareAll orders left right).isLE

end OrderBy

end Medley
