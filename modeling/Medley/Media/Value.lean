import Medley.SortedMap
import Medley.Text.Blank
import Medley.Text.Integer

/-!
# Property values

A property of a medium is an integer or a text.  Either reads as a text, and a text that holds an
integer reads as one.
-/

namespace Medley

/-- The value of a property. -/
inductive Value where
  | integer (value : Int64)
  | text (value : String)
  deriving DecidableEq, Repr

/-- The integer that a text holds between blanks. -/
def Text.readHeldInt64? (text : String) : Option Int64 := readInt64? (trim text)

namespace Value

/-- The integer that a value is or holds as a text. -/
def toInteger? : Value → Option Int64
  | integer value => some value
  | text value => Text.readHeldInt64? value

/-- The value as a text. -/
def toText : Value → String
  | integer value => Text.writeInt64 value
  | text value => value

end Value

/-- The properties of a medium by their names. -/
abbrev Properties := SortedMap String Value

/-- A row of an answer: the fields asked for that the medium has. -/
abbrev Row := SortedMap String Value

end Medley
