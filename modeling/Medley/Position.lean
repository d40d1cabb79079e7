import Medley.Text.Integer

/-!
# Positions in a text

Where something stands in a pattern or a record: the offset in bytes, the line and the column.
Lines and columns count from one; line zero marks an unknown position.
-/

namespace Medley

/-- A place in a text. -/
structure Position where
  offset : Nat
  line : Nat
  column : Nat
  deriving DecidableEq, Repr

/-- Number of bytes that characters take in UTF-8. -/
def byteLength (chars : List Char) : Nat :=
  chars.foldr (fun char length => char.utf8Size + length) 0

@[simp] theorem byteLength_nil : byteLength [] = 0 := rfl

@[simp] theorem byteLength_cons (char : Char) (chars : List Char) :
    byteLength (char :: chars) = char.utf8Size + byteLength chars := rfl

@[simp] theorem byteLength_append (left right : List Char) :
    byteLength (left ++ right) = byteLength left + byteLength right := by
  induction left with
  | nil => simp
  | cons char chars ih => simp [ih, Nat.add_assoc]

namespace Position

/-- The position of something that has none. -/
def unknown : Position := ⟨0, 0, 0⟩

/-- Whether nothing is known about the place. -/
def isUnknown (position : Position) : Bool := position.line == 0

/-- The place at a byte offset of a text that is a single line; columns are bytes there. -/
def atOffset (offset : Nat) : Position := ⟨offset, 1, offset + 1⟩

/-- The place just behind a stretch of text: columns are characters since the last line break. -/
def behind (passed : List Char) : Position where
  offset := byteLength passed
  line := passed.count '\n' + 1
  column := (passed.reverse.takeWhile (· != '\n')).length + 1

/-- The place in a text where a given rest of it starts. -/
def ofRest (text rest : List Char) : Position := behind (text.take (text.length - rest.length))

@[simp] theorem ofRest_append (passed rest : List Char) :
    ofRest (passed ++ rest) rest = behind passed := by
  simp [ofRest]

@[simp] theorem isUnknown_unknown : unknown.isUnknown = true := rfl

@[simp] theorem isUnknown_atOffset (offset : Nat) : (atOffset offset).isUnknown = false := rfl

@[simp] theorem isUnknown_behind (passed : List Char) : (behind passed).isUnknown = false := rfl

/-- How a place reads in a message: the line is named from the second line on. -/
def render (position : Position) : String :=
  if position.isUnknown then "(unknown position)"
  else if position.line > 1 then
    "line " ++ Text.writeNat position.line ++ ", position " ++ Text.writeNat position.column
  else "position " ++ Text.writeNat position.column

end Position

end Medley
