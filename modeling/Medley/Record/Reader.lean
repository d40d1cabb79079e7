import Medley.Error
import Medley.Tree.Build

/-!
# Reading records

The reader follows the grammar of records token by token, with spaces, tabs and line breaks allowed
before every token and behind the record.  A repetition takes as many items as it can and never
fails; what follows it then says what is missing.  So a failure inside an operand shows as a missing
closing parenthesis where that operand starts.
-/

namespace Medley.Record

/-- A step of reading: it sees the rest of the text and gives a value and what is left, or the rest
of the text at which the missing piece should stand. -/
abbrev Reader := StateT (List Char) (Except (List Char))

/-- The characters that may stand between tokens. -/
def isGap (char : Char) : Bool := char == ' ' || char == '\t' || char == '\r' || char == '\n'

/-- A text without the gap at its start. -/
def skipGap (text : List Char) : List Char := text.dropWhile isGap

/-- Read a given character, behind a gap. -/
def expect (char : Char) : Reader Unit := fun text =>
  match skipGap text with
  | [] => .error []
  | first :: rest => if first = char then .ok ((), rest) else .error (first :: rest)

/-- As many items as can be read, at most a given number. -/
def many {α : Type} (item : Reader α) : Nat → List Char → List α × List Char
  | 0, text => ([], text)
  | budget + 1, text =>
      match item text with
      | .error _ => ([], text)
      | .ok (value, rest) =>
          let (values, left) := many item budget rest
          (value :: values, left)

/-- As many items as can be read.  Every item takes at least one character, so the length of the
text bounds their number. -/
def repeated {α : Type} (item : Reader α) : Reader (List α) := fun text =>
  .ok (many item text.length text)

/-- The text up to the closing quote, and what is behind that quote.  A backslash stands for the
character after it. -/
def closeQuote : List Char → Option (List Char × List Char)
  | [] => none
  | '"' :: rest => some ([], rest)
  | '\\' :: char :: rest => (closeQuote rest).map fun (chars, left) => (char :: chars, left)
  | char :: rest =>
      if char = '\\' then none
      else (closeQuote rest).map fun (chars, left) => (char :: chars, left)

/-- Read a text in double quotes. -/
def quotedText : Reader String := do
  expect '"'
  fun text =>
    match closeQuote text with
    | some (chars, rest) => .ok (String.ofList chars, rest)
    | none => .error text

/-- Read an attribute: a quoted key, a colon and a quoted value. -/
def entry : Reader (String × String) := do
  let key ← quotedText
  expect ':'
  return (key, ← quotedText)

/-- Read a word of ASCII letters that names a kind. -/
def kindWord : Reader Kind := fun text =>
  let start := skipGap text
  match Kind.ofName? (String.ofList (start.takeWhile Char.isAlpha)) with
  | some kind => .ok (kind, start.dropWhile Char.isAlpha)
  | none => .error start

/-- Read a run of digits, with a minus sign for a negative number, that fits a media id. -/
def mediaId : Reader Int64 := fun text =>
  let start := skipGap text
  let (sign, digits) := match start with
    | '-' :: rest => (['-'], rest)
    | rest => ([], rest)
  match Text.readInt64? (String.ofList (sign ++ digits.takeWhile Char.isDigit)) with
  | some id => .ok (id, digits.dropWhile Char.isDigit)
  | none => .error start

/-- Read a record whose operands nest no deeper than a given number of levels. -/
def shapeWithin : Nat → Reader Shape
  | 0 => fun text => .error (skipGap text)
  | depth + 1 => do
      expect '('
      let kind ← kindWord
      expect '['
      let attributes ← repeated entry
      expect ']'
      expect '['
      let ids ← repeated mediaId
      expect ']'
      let operands ← repeated (shapeWithin depth)
      expect ')'
      return .node () { kind, attributes := SortedMap.ofList attributes, ids } operands

/-- Read a record.  Each level takes a parenthesis, so the length of the text bounds the depth. -/
def shape : Reader Shape := fun text => shapeWithin (text.length + 1) text

/-- Read a text that is one record.  The name says in errors what the text is. -/
def read (what record : String) : Except Error Shape :=
  let text := record.toList
  let refuse (fault : RecordFault) (rest : List Char) : Except Error Shape :=
    .error { cause := .malformedRecord what fault, position := .ofRest text rest }
  match shape text with
  | .error rest => refuse .grammar rest
  | .ok (tree, rest) =>
      match skipGap rest with
      | [] => .ok tree
      | left => refuse .unparsedRest left

end Medley.Record
