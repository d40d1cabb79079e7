/-!
# Blank characters

The characters with the Unicode property `White_Space`, and trimming of such characters from both
ends of a text.
-/

namespace Medley.Text

/-- Code points with the property `White_Space`. -/
def blankCodes : List Nat :=
  [0x09, 0x0A, 0x0B, 0x0C, 0x0D, 0x20, 0x85, 0xA0, 0x1680,
   0x2000, 0x2001, 0x2002, 0x2003, 0x2004, 0x2005, 0x2006, 0x2007, 0x2008, 0x2009, 0x200A,
   0x2028, 0x2029, 0x202F, 0x205F, 0x3000]

/-- Whether a character separates words. -/
def isBlank (char : Char) : Bool := blankCodes.contains char.toNat

/-- Every blank of the ASCII range that core knows is a blank here. -/
theorem isBlank_of_isWhitespace {char : Char} (white : char.isWhitespace = true) :
    isBlank char = true := by
  simp only [Char.isWhitespace, Bool.or_eq_true, decide_eq_true_eq] at white
  rcases white with ((rfl | rfl) | rfl) | rfl <;> decide

example : blankCodes.length = 25 := rfl

/-- Drop the elements that a test accepts from both ends of a list. -/
def trimWhere {α : Type} (unwanted : α → Bool) (elements : List α) : List α :=
  ((elements.dropWhile unwanted).reverse.dropWhile unwanted).reverse

/-- The text without the blanks at its ends. -/
def trim (text : String) : String := String.ofList (trimWhere isBlank text.toList)

end Medley.Text
