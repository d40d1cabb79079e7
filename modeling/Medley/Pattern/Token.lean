import Medley.Text.Integer

/-!
# Tokens of a collection pattern

A pattern is a run of symbols, keywords and words.  A word keeps its text without escapes; which
kind of word it is depends on its characters and on which of them were escaped.
-/

namespace Medley.Pattern

/-- What a token is. -/
inductive TokenKind where
  | groupOpen
  | groupClose
  /-- `in:` before the name of a stored collection. -/
  | reference
  /-- `#` before a sequence of ids. -/
  | symbolId
  | or
  | and
  | not
  | has
  | equals
  | matches
  | smaller
  | smallerEq
  | greater
  | greaterEq
  | integer
  | sequence
  | string
  /-- A word with wildcards. -/
  | pattern
  /-- The one-letter name of a property. -/
  | propShort
  | propLong
  deriving DecidableEq, Repr

namespace TokenKind

/-- All kinds of tokens. -/
def all : List TokenKind :=
  [.groupOpen, .groupClose, .reference, .symbolId, .or, .and, .not, .has, .equals, .matches,
   .smaller, .smallerEq, .greater, .greaterEq, .integer, .sequence, .string, .pattern,
   .propShort, .propLong]

/-- The name of a kind of token. -/
def name : TokenKind → String
  | .groupOpen => "GroupOpen"
  | .groupClose => "GroupClose"
  | .reference => "Reference"
  | .symbolId => "SymbolId"
  | .or => "Or"
  | .and => "And"
  | .not => "Not"
  | .has => "Has"
  | .equals => "Equals"
  | .matches => "Match"
  | .smaller => "Smaller"
  | .smallerEq => "SmallerEq"
  | .greater => "Greater"
  | .greaterEq => "GreaterEq"
  | .integer => "Integer"
  | .sequence => "Sequence"
  | .string => "String"
  | .pattern => "Pattern"
  | .propShort => "PropShort"
  | .propLong => "PropLong"

/-- The kind of token that a name stands for. -/
def ofName? (name : String) : Option TokenKind := all.find? fun kind => kind.name == name

@[simp] theorem ofName?_name (kind : TokenKind) : ofName? kind.name = some kind := by
  cases kind <;> decide

end TokenKind

/-- Whether a token compares by magnitude. -/
def TokenKind.isComparison : TokenKind → Bool
  | .smaller | .smallerEq | .greater | .greaterEq => true
  | _ => false

/-- Whether a token is a word with a text to search for. -/
def TokenKind.isText : TokenKind → Bool
  | .string | .pattern => true
  | _ => false

/-- A token, with the byte offset at which it starts. -/
structure Token where
  kind : TokenKind
  text : String
  offset : Nat
  deriving DecidableEq, Repr

/-- A character of a word, and whether a backslash stands before it. -/
structure Lexeme where
  char : Char
  escaped : Bool
  deriving DecidableEq, Repr

namespace Lexeme

/-- Whether a character stands for others: a star or a question mark that is not escaped. -/
def isWildcard (lexeme : Lexeme) : Bool :=
  !lexeme.escaped && (lexeme.char == '*' || lexeme.char == '?')

/-- Whether a character can be part of a sequence of numbers. -/
def isSequential (lexeme : Lexeme) : Bool :=
  lexeme.char.isDigit || lexeme.char == ',' || lexeme.char == '-'

end Lexeme

/-- The kind of word that one more character makes of a kind.  Digits stay an integer until a comma
or a minus sign comes; any other character makes a string, and a wildcard a pattern for good. -/
def TokenKind.extend (kind : TokenKind) (lexeme : Lexeme) : TokenKind :=
  let text : TokenKind := if lexeme.isWildcard then .pattern else .string
  match kind with
  | .integer =>
      if lexeme.char = ',' ∨ lexeme.char = '-' then .sequence
      else if lexeme.isSequential then .integer
      else text
  | .sequence => if lexeme.isSequential then .sequence else text
  | .string => text
  | other => other

/-- The kind of a word that names no property. -/
def classify (word : List Lexeme) : TokenKind := word.foldl TokenKind.extend .integer

/-- The characters of a word, without its escapes. -/
def wordText (word : List Lexeme) : String := String.ofList (word.map Lexeme.char)

/-- The kind of a token that names a property: one letter is a short name. -/
def Token.propertyKind (token : Token) : TokenKind :=
  if token.text.length = 1 then .propShort else .propLong

end Medley.Pattern
