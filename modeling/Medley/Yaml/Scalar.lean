import Medley.Json.Reader
import Medley.Text.Split
import Medley.Yaml.Cursor

/-!
# Reading YAML scalars

Scalars are plain, in single or in double quotes, or literal blocks.  Within plain and quoted ones a
line break reads as a space, and several as one line break less.
-/

namespace Medley.Yaml

/-- The white space between two characters of a scalar: as it stands on one line, or what the line
breaks in it amount to. -/
inductive Fold where
  | blanks (chars : List Char)
  | breaks (chars : List Char)

namespace Fold

/-- No white space. -/
def none : Fold := blanks []

/-- What the white space reads as. -/
def chars : Fold → List Char
  | blanks chars => chars
  | breaks chars => chars

/-- The white space with a blank more. -/
def addBlank (fold : Fold) (char : Char) : Fold :=
  match fold with
  | blanks chars => blanks (chars ++ [char])
  | breaks chars => breaks chars

/-- The white space with a line break more. -/
def addBreak : Fold → Fold
  | blanks _ => breaks [' ']
  | breaks chars => breaks (if chars = [' '] then ['\n'] else chars ++ ['\n'])

end Fold

/-- The text up to a closing single quote, and what is behind it.  Two quotes stand for one. -/
def closeSingle (fold : Fold) : List Char → Option (List Char × List Char)
  | [] => none
  | '\'' :: '\'' :: rest =>
      (closeSingle .none rest).map fun (chars, left) => (fold.chars ++ '\'' :: chars, left)
  | char :: rest =>
      if char = '\'' then some (fold.chars, rest)
      else if char = '\n' then closeSingle fold.addBreak rest
      else if isBlank char then closeSingle (fold.addBlank char) rest
      else (closeSingle .none rest).map fun (chars, left) => (fold.chars ++ char :: chars, left)

/-- The character that a letter behind a backslash stands for. -/
def escaped? : Char → Option Char
  | '0' => some '\x00'
  | 'a' => some '\x07'
  | 'b' => some '\x08'
  | 't' => some '\t'
  | '\t' => some '\t'
  | 'n' => some '\n'
  | 'v' => some '\x0b'
  | 'f' => some '\x0c'
  | 'r' => some '\r'
  | 'e' => some '\x1b'
  | ' ' => some ' '
  | '"' => some '"'
  | '/' => some '/'
  | '\\' => some '\\'
  | 'N' => some '\u0085'
  | '_' => some '\u00a0'
  | 'L' => some '\u2028'
  | 'P' => some '\u2029'
  | _ => none

/-- The character with a code point in hexadecimal digits. -/
def readCodePoint? (digits : List Char) : Option Char := do
  let code ← Json.readHex? digits
  if code.isValidChar then return Char.ofNat code else none

/-- The text up to a closing double quote, and what is behind it. -/
def closeDouble (fold : Fold) : List Char → Option (List Char × List Char)
  | [] => none
  | '\\' :: '\n' :: rest =>
      (closeDouble (.breaks []) rest).map fun (chars, left) => (fold.chars ++ chars, left)
  | '\\' :: 'x' :: a :: b :: rest => do
      let char ← readCodePoint? [a, b]
      let (chars, left) ← closeDouble .none rest
      return (fold.chars ++ char :: chars, left)
  | '\\' :: 'u' :: a :: b :: c :: d :: rest => do
      let char ← readCodePoint? [a, b, c, d]
      let (chars, left) ← closeDouble .none rest
      return (fold.chars ++ char :: chars, left)
  | '\\' :: 'U' :: a :: b :: c :: d :: e :: f :: g :: h :: rest => do
      let char ← readCodePoint? [a, b, c, d, e, f, g, h]
      let (chars, left) ← closeDouble .none rest
      return (fold.chars ++ char :: chars, left)
  | '\\' :: char :: rest => do
      let char ← escaped? char
      let (chars, left) ← closeDouble .none rest
      return (fold.chars ++ char :: chars, left)
  | char :: rest =>
      if char = '"' then some (fold.chars, rest)
      else if char = '\n' then closeDouble fold.addBreak rest
      else if isBlank char then closeDouble (fold.addBlank char) rest
      else (closeDouble .none rest).map fun (chars, left) => (fold.chars ++ char :: chars, left)

/-- Read a scalar in quotes. -/
def quotedScalar (cursor : Cursor) : Option (String × Cursor) := do
  let (chars, rest) ← match cursor.rest with
    | '\'' :: rest => closeSingle .none rest
    | '"' :: rest => closeDouble .none rest
    | _ => none
  return (String.ofList chars, cursor.jump rest)

/-- The characters that nothing plain starts with. -/
def indicators : List Char :=
  ['-', '?', ':', ',', '[', ']', '\x7b', '\x7d', '#', '&', '*', '!', '|', '>', '\'', '"', '%', '@',
   '\x60']

/-- Whether a character ends what is plain inside brackets. -/
def isFlowMark (char : Char) : Bool := char ∈ [',', '[', ']', '\x7b', '\x7d']

/-- Whether a plain scalar starts a text. -/
def startsPlain (inBrackets : Bool) : List Char → Bool
  | [] => false
  | '-' :: rest => !blankAhead rest
  | '?' :: rest => !inBrackets && !blankAhead rest
  | ':' :: rest => !inBrackets && !blankAhead rest
  | char :: _ => !isBlank char && char != '\n' && char ∉ indicators

/-- What is plain up to the end of the line, to a comment or to a colon that ends a key, with the
blanks before that, and what is left. -/
def plainLine (inBrackets afterBlank : Bool) : List Char → List Char × List Char
  | [] => ([], [])
  | char :: rest =>
      if char = '\n' ∨ (char = ':' ∧ blankAhead rest) ∨ (char = '#' ∧ afterBlank) ∨
          (inBrackets ∧ (isFlowMark char ∨ (char = ':' ∧ rest.head?.any isFlowMark))) then
        ([], char :: rest)
      else
        let (chars, left) := plainLine inBrackets (isBlank char) rest
        (char :: chars, left)

/-- A text without blanks at its end. -/
def trimEnd (chars : List Char) : List Char := (chars.reverse.dropWhile isBlank).reverse

/-- What the line breaks at the start of a text read as in a plain scalar, and what is left. -/
def foldBreaks (fold : Fold) : List Char → Fold × List Char
  | [] => (fold, [])
  | char :: rest =>
      if char = '\n' then foldBreaks fold.addBreak rest
      else if isBlank char then foldBreaks (fold.addBlank char) rest
      else (fold, char :: rest)

/-- Read the lines of a plain scalar, which must be indented at least to a given column, at most a
given number of them. -/
def plainLines (inBrackets : Bool) (floor : Nat) : Nat → Cursor → List Char × Cursor
  | 0, cursor => ([], cursor)
  | budget + 1, cursor =>
      let (raw, left) := plainLine inBrackets false cursor.rest
      let here := trimEnd raw
      let behind := cursor.jump left
      let (fold, more) := foldBreaks .none left
      let following := behind.jump more
      if left.head? = some '\n' ∧ ¬ following.rest.isEmpty ∧ ¬ following.atDocumentEnd ∧
          following.rest.head? ≠ some '#' ∧ (inBrackets ∨ floor ≤ following.column) ∧
          ¬ (inBrackets ∧ following.rest.head?.any isFlowMark) then
        let (chars, final) := plainLines inBrackets floor budget following
        (here ++ fold.chars ++ chars, final)
      else (here, behind)

/-- Read a plain scalar that may go on over several lines. -/
def plainScalar (inBrackets : Bool) (floor : Nat) (cursor : Cursor) : String × Cursor :=
  let (chars, behind) := plainLines inBrackets floor (cursor.rest.length + 1) cursor
  (String.ofList chars, behind)

/-- What a literal block does with the line breaks at its end. -/
inductive Chomp where
  | strip
  | clip
  | keep

/-- The number of spaces at the start of a line. -/
def indentOf (line : List Char) : Nat := (line.takeWhile (· == ' ')).length

/-- The lines of a text; a line break at its end starts no line. -/
def linesOf (text : List Char) : List (List Char) :=
  let lines := Text.splitAll '\n' text
  if lines.getLast? = some [] then lines.dropLast else lines

/-- The lines of a literal block: those with some indentation, and blank ones among them. -/
def blockLines (indent : Nat) : List (List Char) → List (List Char)
  | [] => []
  | line :: rest =>
      if line.all (· == ' ') then line.drop indent :: blockLines indent rest
      else if indent ≤ indentOf line then line.drop indent :: blockLines indent rest
      else []

/-- The text of a literal block from its lines. -/
def blockText (chomp : Chomp) (lines : List (List Char)) : List Char :=
  let trailing := (lines.reverse.takeWhile List.isEmpty).length
  let body := lines.take (lines.length - trailing)
  let text := ['\n'].intercalate body
  match chomp with
  | .strip => text
  | .clip => if body.isEmpty then [] else text ++ ['\n']
  | .keep => (if body.isEmpty then [] else text ++ ['\n']) ++ List.replicate trailing '\n'

/-- Read a literal block: the bar, perhaps a digit for its indentation relative to a column and a sign
for the breaks at its end, and then the lines. -/
def literalBlock (parent floor : Nat) (cursor : Cursor) : Option (String × Cursor) := do
  let header ← match cursor.rest with
    | '|' :: rest => some rest
    | _ => none
  let marks := header.takeWhile fun char => !isBlank char && char != '\n'
  let (digit, chomp) ← match marks with
    | [] => some (none, Chomp.clip)
    | ['-'] => some (none, .strip)
    | ['+'] => some (none, .keep)
    | [digit] => some (some digit, .clip)
    | [digit, '-'] => some (some digit, .strip)
    | [digit, '+'] => some (some digit, .keep)
    | _ => none
  let behind := header.dropWhile fun char => !isBlank char && char != '\n'
  let lineEnd := behind.dropWhile isBlank
  let body ← match lineEnd with
    | [] => some []
    | '\n' :: rest => some rest
    | '#' :: rest => some ((rest.dropWhile (· != '\n')).drop 1)
    | _ => none
  let lines := linesOf body
  let indent ← match digit with
    | some digit =>
        if digit.isDigit ∧ digit ≠ '0' then some (parent + (digit.toNat - '0'.toNat)) else none
    | none => some (((lines.find? fun line => !line.all (· == ' ')).map indentOf).getD 0)
  if indent < floor ∧ digit = none then
    return ("", { rest := body, column := 0, isFresh := true })
  let block := blockLines indent lines
  let used := (lines.take block.length).map fun line => line.length + 1
  let final := body.drop (used.foldl (· + ·) 0)
  return (String.ofList (blockText chomp block), { rest := final, column := 0, isFresh := true })

end Medley.Yaml
