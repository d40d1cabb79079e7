/-!
# Walking through a YAML text

A cursor knows the column of the next character, because indentation matters, and whether it stands
on a new line behind the last thing that was read.
-/

namespace Medley.Yaml

/-- A place in a text. -/
structure Cursor where
  rest : List Char
  column : Nat := 0
  /-- Whether a line break lies between the last thing read and this place. -/
  isFresh : Bool := true

/-- Whether a character is a space or a tab. -/
def isBlank (char : Char) : Bool := char == ' ' || char == '\t'

/-- Whether a text starts with a blank or a line break, or is empty. -/
def blankAhead : List Char → Bool
  | [] => true
  | char :: _ => isBlank char || char == '\n'

namespace Cursor

/-- The cursor behind some of the characters ahead. -/
def advance (cursor : Cursor) (count : Nat) : Cursor :=
  let passed := cursor.rest.take count
  { rest := cursor.rest.drop count
    column :=
      if passed.contains '\n' then (passed.reverse.takeWhile (· != '\n')).length
      else cursor.column + passed.length
    isFresh := false }

/-- The cursor where only a given end of the characters ahead is left. -/
def jump (cursor : Cursor) (rest : List Char) : Cursor :=
  cursor.advance (cursor.rest.length - rest.length)

/-- Pass blanks, comments and line breaks.  At the start of a line tabs are no blanks unless the
text is inside brackets. -/
def skipGap (inBrackets : Bool) (column : Nat) (isFresh inComment : Bool) : List Char → Cursor
  | [] => { rest := [], column, isFresh }
  | char :: rest =>
      if char = '\n' then skipGap inBrackets 0 true false rest
      else if inComment then skipGap inBrackets (column + 1) isFresh true rest
      else if char = ' ' ∨ (char = '\t' ∧ (inBrackets ∨ ¬ isFresh)) then
        skipGap inBrackets (column + 1) isFresh false rest
      else if char = '#' then skipGap inBrackets (column + 1) isFresh true rest
      else { rest := char :: rest, column, isFresh }

/-- The cursor at the next thing to read. -/
def next (cursor : Cursor) (inBrackets : Bool) : Cursor :=
  skipGap inBrackets cursor.column cursor.isFresh false cursor.rest

/-- The cursor behind blanks on the same line. -/
def skipBlanks (cursor : Cursor) : Cursor := cursor.jump (cursor.rest.dropWhile isBlank)

/-- Whether a document ends here: at the end of the text, or before a line that starts with three
minus signs or three points. -/
def atDocumentEnd (cursor : Cursor) : Bool :=
  match cursor.rest with
  | [] => true
  | '-' :: '-' :: '-' :: rest => cursor.column == 0 && blankAhead rest
  | '.' :: '.' :: '.' :: rest => cursor.column == 0 && blankAhead rest
  | _ => false

end Cursor

end Medley.Yaml
