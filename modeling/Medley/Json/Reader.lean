import Medley.Json.Basic

/-!
# Reading JSON

A reader for JSON texts, over the characters that are left.
-/

namespace Medley

namespace Json

/-- A step of reading. -/
abbrev Scan := StateT (List Char) Option

/-- Whether a character may stand between tokens. -/
def isGap (char : Char) : Bool := char == ' ' || char == '\t' || char == '\r' || char == '\n'

/-- Pass the characters between tokens. -/
def skipGap : Scan Unit := modify (·.dropWhile isGap)

/-- Pass a given character. -/
def expect (char : Char) : Scan Unit := fun text =>
  match text with
  | first :: rest => if first = char then some ((), rest) else none
  | [] => none

/-- The character that a letter behind a backslash stands for. -/
def escaped? : Char → Option Char
  | '"' => some '"'
  | '\\' => some '\\'
  | '/' => some '/'
  | 'b' => some '\x08'
  | 'f' => some '\x0c'
  | 'n' => some '\n'
  | 'r' => some '\r'
  | 't' => some '\t'
  | _ => none

/-- The number that hexadecimal digits denote. -/
def readHex? (digits : List Char) : Option Nat :=
  digits.foldlM (fun value digit => do
    if digit.toNat < 0x80 then
      return 16 * value + (← Text.hexValue? (UInt8.ofNat digit.toNat)).toNat
    else none) 0

/-- The code points up to the closing quote, and what is behind it. -/
def closeQuote : List Char → Option (List Nat × List Char)
  | [] => none
  | '"' :: rest => some ([], rest)
  | '\\' :: 'u' :: first :: second :: third :: fourth :: rest => do
      let unit ← readHex? [first, second, third, fourth]
      let (units, left) ← closeQuote rest
      return (unit :: units, left)
  | '\\' :: char :: rest => do
      let char ← escaped? char
      let (units, left) ← closeQuote rest
      return (char.toNat :: units, left)
  | char :: rest => do
      if char.toNat < 0x20 ∨ char = '\\' then none
      else
        let (units, left) ← closeQuote rest
        return (char.toNat :: units, left)

/-- Read a text in quotes. -/
def quotedText : Scan (List Nat) := do
  expect '"'
  fun text => closeQuote text

/-- The digits at the start of a text, at least one. -/
def digits : Scan (List Char) := fun text =>
  match text.takeWhile Char.isDigit with
  | [] => none
  | found => some (found, text.dropWhile Char.isDigit)

/-- The digits before the point; a leading zero stands alone. -/
def wholePart : Scan (List Char) := do
  let found ← digits
  if found.length > 1 ∧ found.head? = some '0' then failure else return found

/-- The digits behind the point, if there is one. -/
def fractionPart : Scan (List Char) := do
  match ← get with
  | '.' :: rest =>
      set rest
      return '.' :: (← digits)
  | _ => return []

/-- The exponent, if there is one. -/
def exponentPart : Scan (List Char) := do
  match ← get with
  | mark :: rest =>
      if mark = 'e' ∨ mark = 'E' then
        match rest with
        | '-' :: rest => set rest
        | '+' :: rest => set rest
        | rest => set rest
        return mark :: (← digits)
      else return []
  | [] => return []

/-- Read a number. -/
def numberValue : Scan Json := do
  let sign ← modifyGet fun text =>
    match text with
    | '-' :: rest => (['-'], rest)
    | rest => ([], rest)
  let whole ← wholePart
  let fraction ← fractionPart
  let exponent ← exponentPart
  return .number (sign ++ whole ++ fraction ++ exponent)

/-- The items up to a closing bracket, with commas between them, at most a given number. -/
def itemsBefore {α : Type} (close : Char) (item : Scan α) : Nat → Scan (List α)
  | 0 => failure
  | budget + 1 => do
      let first ← item
      skipGap
      match ← get with
      | ',' :: rest =>
          set rest
          return first :: (← itemsBefore close item budget)
      | _ =>
          expect close
          return [first]

/-- The items in brackets, of which the opening one has been passed. -/
def bracketed {α : Type} (close : Char) (item : Scan α) : Scan (List α) := do
  skipGap
  let text ← get
  match text with
  | first :: rest =>
      if first = close then
        set rest
        return []
      else itemsBefore close item text.length
  | [] => failure

/-- Read a member of an object. -/
def member (value : Scan Json) : Scan (List Nat × Json) := do
  skipGap
  let key ← quotedText
  skipGap
  expect ':'
  return (key, ← value)

/-- Read a value in which brackets nest no deeper than a given number of levels. -/
def valueWithin : Nat → Scan Json
  | 0 => failure
  | depth + 1 => do
      skipGap
      match ← get with
      | 'n' :: 'u' :: 'l' :: 'l' :: rest => set rest; return .null
      | 't' :: 'r' :: 'u' :: 'e' :: rest => set rest; return .bool true
      | 'f' :: 'a' :: 'l' :: 's' :: 'e' :: rest => set rest; return .bool false
      | '[' :: rest => set rest; return .list (← bracketed ']' (valueWithin depth))
      | '\x7b' :: rest =>
          set rest
          return .object (← bracketed '\x7d' (member (valueWithin depth)))
      | '"' :: _ => return .text (← quotedText)
      | _ => numberValue

/-- The value that a text is.  Each level takes a bracket, so the length bounds the depth. -/
def parse? (text : String) : Option Json := do
  let (value, rest) ← (valueWithin (text.toList.length + 1)).run text.toList
  if rest.all isGap then return value else none

end Json

end Medley
