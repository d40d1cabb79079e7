import Medley.Text.Percent

/-!
# JSON values

JSON values as they are written: numbers keep their digits, and texts keep their code points, so that
what asks for a value decides what it may be.  Half of a surrogate pair is no text, but it may stand
in a text that nobody asks for.
-/

namespace Medley

/-- A JSON value. -/
inductive Json where
  | null
  | bool (value : Bool)
  | number (digits : List Char)
  /-- A text as code points, among which halves of surrogate pairs may stand. -/
  | text (units : List Nat)
  | list (items : List Json)
  /-- Members in the order of the text; a key may occur more than once. -/
  | object (members : List (List Nat × Json))

namespace Json

instance : Inhabited Json := ⟨null⟩

/-- Whether a code point is the first half of a surrogate pair. -/
def isHighHalf (unit : Nat) : Bool := 0xD800 ≤ unit && unit < 0xDC00

/-- Whether a code point is the second half of a surrogate pair. -/
def isLowHalf (unit : Nat) : Bool := 0xDC00 ≤ unit && unit < 0xE000

/-- The characters of code points in which halves stand in pairs only. -/
def joinHalves : List Nat → Option (List Char)
  | [] => some []
  | [unit] => if isHighHalf unit || isLowHalf unit then none else some [Char.ofNat unit]
  | unit :: next :: rest =>
      if isHighHalf unit then
        if isLowHalf next then
          (joinHalves rest).map
            (Char.ofNat (0x10000 + 0x400 * (unit - 0xD800) + (next - 0xDC00)) :: ·)
        else none
      else if isLowHalf unit then none
      else (joinHalves (next :: rest)).map (Char.ofNat unit :: ·)

/-- The code points of a text. -/
def unitsOf (text : String) : List Nat := text.toList.map Char.toNat

/-- The text of code points. -/
def textOf? (units : List Nat) : Option String := (joinHalves units).map String.ofList

/-- A text as a value. -/
def ofText (text : String) : Json := .text (unitsOf text)

/-- An integer as a value. -/
def ofInteger (value : Int) : Json := .number (Text.writeInteger value)

/-- An object with members given by their keys. -/
def ofMembers (members : List (String × Json)) : Json :=
  .object (members.map fun (key, value) => (unitsOf key, value))

/-- Something or nothing as a value. -/
def ofOption {α : Type} (image : α → Json) : Option α → Json
  | some value => image value
  | none => .null

/-- The text that a value is. -/
def toText? : Json → Option String
  | .text units => textOf? units
  | _ => none

/-- The integer that a value is; a number with a fraction or an exponent is none. -/
def toInteger? : Json → Option Int
  | .number digits => Text.readInteger? digits
  | _ => none

/-- The truth value that a value is. -/
def toBool? : Json → Option Bool
  | .bool value => some value
  | _ => none

/-- The items of a list. -/
def toList? : Json → Option (List Json)
  | .list items => some items
  | _ => none

/-- Something, or nothing for the value that is nothing. -/
def toOption? {α : Type} (read : Json → Option α) : Json → Option (Option α)
  | .null => some none
  | value => (read value).map some

/-- The member of an object with a key. -/
def member? (value : Json) (key : String) : Option Json :=
  match value with
  | .object members => members.lookup (unitsOf key)
  | _ => none

end Json

end Medley
