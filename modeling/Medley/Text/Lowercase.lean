import Medley.Text.CaseTable

/-!
# Lower case

The lower case of a text by the rules of Unicode that no language changes.  Two letters need more
than the table of single characters: the capital I with a dot becomes two characters, and the
capital sigma has a form of its own at the end of a word.
-/

namespace Medley.Text

/-- Whether the nearest character that is not passed over is a letter with case. -/
def nextIsCased (neighbours : List Char) : Bool :=
  match neighbours.dropWhile isPassedOver with
  | char :: _ => isCased char
  | [] => false

/-- The lower case of a character, given what stands before it, nearest first, and behind it. -/
def lowercaseChar (before behind : List Char) (char : Char) : List Char :=
  if char.toNat < 0x80 then [char.toLower]
  else if char = '\u03A3' then
    if nextIsCased before && !nextIsCased behind then ['\u03C2'] else ['\u03C3']
  else if char = '\u0130' then ['i', '\u0307']
  else [(lowercaseBeyond? char).getD char]

/-- The lower case of a text, given what stands before it, nearest first. -/
def lowercaseBehind (before : List Char) : List Char → List Char
  | [] => []
  | char :: rest => lowercaseChar before rest char ++ lowercaseBehind (char :: before) rest

/-- The lower case of a text. -/
def lowercase (text : String) : String := String.ofList (lowercaseBehind [] text.toList)

/-- The lower case of an ASCII character is a single character, whatever surrounds it. -/
@[simp] theorem lowercaseChar_of_ascii {char : Char} (ascii : char.toNat < 0x80)
    (before behind : List Char) : lowercaseChar before behind char = [char.toLower] := by
  simp [lowercaseChar, ascii]

end Medley.Text
