import Medley.Text.Integer

/-!
# Wildcard patterns

Patterns as they are used for file names: `?` stands for one character, `*` for any run of
characters, `[…]` and `[!…]` for one character inside or outside a class, and `**`, which must be a
whole component between slashes, for any run of components.  Matching is told whether upper and
lower case ASCII letters are the same.

A text is matched from the end of the pattern to its start.  The table of a pattern says for every
suffix of the text whether the pattern matches it, and the table of a pattern with one token more in
front follows from it, so matching never goes back.
-/

namespace Medley

/-- A member of a character class. -/
inductive ClassItem where
  | char (char : Char)
  | range (first last : Char)
  deriving DecidableEq, Repr

namespace ClassItem

/-- The members that the characters of a class denote: a minus sign between two characters makes a
range of them. -/
def ofChars : List Char → List ClassItem
  | first :: '-' :: last :: rest => .range first last :: ofChars rest
  | first :: rest => .char first :: ofChars rest
  | [] => []

end ClassItem

/-- A part of a wildcard pattern. -/
inductive GlobToken where
  | char (char : Char)
  | anyChar
  | oneOf (items : List ClassItem)
  | noneOf (items : List ClassItem)
  /-- Any run of characters. -/
  | anyRun
  /-- Nothing, or any run of characters up to a slash or to the end. -/
  | anyComponents
  deriving DecidableEq, Repr

/-- Why a text is not a wildcard pattern. -/
inductive GlobFault where
  | tooManyStars
  | brokenComponent
  | brokenClass
  deriving DecidableEq, Repr

/-- The fault in words. -/
def GlobFault.text : GlobFault → String
  | tooManyStars => "wildcards are either regular `*` or recursive `**`"
  | brokenComponent => "recursive wildcards must form a single path component"
  | brokenClass => "invalid range pattern"

/-- A fault and the index of the character that it is reported at. -/
structure GlobError where
  position : Nat
  fault : GlobFault
  deriving DecidableEq, Repr

/-- The error as a line of text. -/
def GlobError.render (error : GlobError) : String :=
  "Pattern syntax error near position " ++ Text.writeNat error.position ++ ": " ++ error.fault.text

/-- A character class that is being read. -/
structure OpenClass where
  /-- The index of the bracket that opens the class. -/
  start : Nat
  isNegated : Bool
  /-- The characters so far, the last one first. -/
  taken : List Char

/-- The token of a class that has been read. -/
def OpenClass.token (opened : OpenClass) : GlobToken :=
  let items := ClassItem.ofChars opened.taken.reverse
  if opened.isNegated then .noneOf items else .oneOf items

namespace Glob

/-- Read the rest of a pattern from an index on, behind a given character and perhaps inside a
class.  The first character of a class is always a member of it. -/
def parseFrom (position : Nat) (previous : Option Char) :
    Option OpenClass → List Char → Except GlobError (List GlobToken)
  | none, [] => .ok []
  | some opened, [] => .error ⟨opened.start, .brokenClass⟩
  | some opened, char :: rest =>
      if char = ']' then
        (parseFrom (position + 1) (some char) none rest).map (opened.token :: ·)
      else parseFrom (position + 1) (some char)
        (some { opened with taken := char :: opened.taken }) rest
  | none, '?' :: rest => (parseFrom (position + 1) (some '?') none rest).map (.anyChar :: ·)
  | none, '*' :: '*' :: '*' :: _ => .error ⟨position + 2, .tooManyStars⟩
  | none, '*' :: '*' :: rest =>
      if previous.any (· != '/') then .error ⟨position - 1, .brokenComponent⟩
      else match rest with
        | [] => .ok [.anyComponents]
        | '/' :: rest =>
            (parseFrom (position + 3) (some '/') none rest).map (.anyComponents :: ·)
        | _ => .error ⟨position + 2, .brokenComponent⟩
  | none, '*' :: rest => (parseFrom (position + 1) (some '*') none rest).map (.anyRun :: ·)
  | none, '[' :: '!' :: first :: rest =>
      parseFrom (position + 3) (some first) (some ⟨position, true, [first]⟩) rest
  | none, '[' :: first :: rest =>
      if first = '!' then .error ⟨position, .brokenClass⟩
      else parseFrom (position + 2) (some first) (some ⟨position, false, [first]⟩) rest
  | none, '[' :: [] => .error ⟨position, .brokenClass⟩
  | none, char :: rest => (parseFrom (position + 1) (some char) none rest).map (.char char :: ·)

/-- The tokens of a wildcard pattern. -/
def parse (pattern : String) : Except GlobError (List GlobToken) :=
  parseFrom 0 none none pattern.toList

/-- A text with every special character in a class of its own, so that only itself matches. -/
def escapeChar (char : Char) : List Char :=
  if char ∈ ['?', '*', '[', ']'] then ['[', char, ']'] else [char]

/-- The wildcard pattern of a pattern in which a percent sign stands for any run of characters, an
underscore for one, and all else for itself. -/
def ofLike (pattern : String) : String :=
  String.ofList <| pattern.toList.flatMap fun char =>
    if char = '%' then ['*'] else if char = '_' then ['?'] else escapeChar char

end Glob

/-- Whether two characters are the same, for ASCII letters perhaps apart from their case. -/
def sameChar (caseSensitive : Bool) (left right : Char) : Bool :=
  if caseSensitive then left == right else left.toLower == right.toLower

/-- Whether a class item has a character.  A range has both cases of a letter only if it goes from
a letter to a letter. -/
def ClassItem.accepts (caseSensitive : Bool) (item : ClassItem) (char : Char) : Bool :=
  match item with
  | .char other => sameChar caseSensitive char other
  | .range first last =>
      (first ≤ char && char ≤ last) ||
      (!caseSensitive && first.isAlpha && last.isAlpha &&
        first.toLower ≤ char.toLower && char.toLower ≤ last.toLower)

namespace GlobToken

/-- Whether a token that stands for one character accepts it. -/
def accepts (caseSensitive : Bool) (token : GlobToken) (char : Char) : Bool :=
  match token with
  | .char other => sameChar caseSensitive char other
  | .anyChar => true
  | .oneOf items => items.any fun item => item.accepts caseSensitive char
  | .noneOf items => !items.any fun item => item.accepts caseSensitive char
  | .anyRun => false
  | .anyComponents => false

/-- For every suffix of a text: whether one of its suffixes is in a table. -/
def anySuffix : List Bool → List Bool
  | [] => []
  | here :: later =>
      let next := anySuffix later
      (here || next.head?.getD false) :: next

/-- For every suffix of a text: whether a later suffix behind a slash, or the empty one, is in a
table. -/
def anyComponent : List Char → List Bool → List Bool
  | first :: rest, _ :: later =>
      let next := anyComponent rest later
      ((first == '/' && later.head?.getD false) || next.head?.getD false) :: next
  | _, table => table

/-- The table of a pattern with a token put in front of it. -/
def precede (caseSensitive : Bool) (text : List Char) (token : GlobToken) (table : List Bool) :
    List Bool :=
  match token with
  | .anyRun => anySuffix table
  | .anyComponents => List.zipWith (· || ·) table (anyComponent text table)
  | single =>
      List.zipWith (fun char next => single.accepts caseSensitive char && next) text
        (table.drop 1) ++ [false]

end GlobToken

namespace Glob

/-- For every suffix of a text, from the whole text to the empty one: whether a pattern matches it. -/
def table (caseSensitive : Bool) (tokens : List GlobToken) (text : List Char) : List Bool :=
  tokens.foldr (GlobToken.precede caseSensitive text) (text.map (fun _ => false) ++ [true])

/-- Whether a pattern matches a text. -/
def isMatch (caseSensitive : Bool) (tokens : List GlobToken) (text : String) : Bool :=
  (table caseSensitive tokens text.toList).head?.getD false

example : ((parse "a/**/b?[!x-z]").toOption.map (isMatch true · "a/c/d/bcd")) = some true := by
  decide

end Glob

end Medley
