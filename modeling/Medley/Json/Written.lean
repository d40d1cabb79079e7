import Medley.Json.Basic

/-!
# Writing JSON

JSON values as texts, with every member and every item on a line of its own.
-/

namespace Medley.Json

/-- A code point inside the quotes of a text.  What cannot be shown is written by its number. -/
def writeUnit (unit : Nat) : List Char :=
  let numbered : List Char :=
    '\\' :: 'u' :: ([unit / 0x1000, unit / 0x100 % 16, unit / 16 % 16, unit % 16].map fun digit =>
      (Text.hexDigit digit).toLower)
  if isHighHalf unit || isLowHalf unit then numbered
  else match Char.ofNat unit with
    | '"' => ['\\', '"']
    | '\\' => ['\\', '\\']
    | '\x08' => ['\\', 'b']
    | '\x0c' => ['\\', 'f']
    | '\n' => ['\\', 'n']
    | '\r' => ['\\', 'r']
    | '\t' => ['\\', 't']
    | char => if unit < 0x20 then numbered else [char]

/-- A text in quotes. -/
def writeUnits (units : List Nat) : String :=
  String.ofList ('"' :: (units.flatMap writeUnit ++ ['"']))

/-- A truth value. -/
def writeBool (flag : Bool) : String := if flag then "true" else "false"

/-- Values on lines of their own between brackets, which stand at some indentation. -/
def writeLines (opening closing indent : String) (lines : List String) : String :=
  if lines.isEmpty then opening ++ closing
  else opening ++ "\n" ++ ",\n".intercalate (lines.map fun line => indent ++ "  " ++ line) ++ "\n" ++
    indent ++ closing

mutual

/-- A value at some indentation. -/
def writeAt (indent : String) : Json → String
  | .null => "null"
  | .bool flag => writeBool flag
  | .number digits => String.ofList digits
  | .text units => writeUnits units
  | .list items => writeLines "[" "]" indent (writeItems (indent ++ "  ") items)
  | .object members => writeLines "\x7b" "\x7d" indent (writeMembers (indent ++ "  ") members)

/-- The items of a list at some indentation. -/
def writeItems (indent : String) : List Json → List String
  | [] => []
  | item :: rest => writeAt indent item :: writeItems indent rest

/-- The members of an object at some indentation. -/
def writeMembers (indent : String) : List (List Nat × Json) → List String
  | [] => []
  | (key, value) :: rest =>
      (writeUnits key ++ ": " ++ writeAt indent value) :: writeMembers indent rest

end

/-- A value as a text. -/
def write (value : Json) : String := writeAt "" value

end Medley.Json
