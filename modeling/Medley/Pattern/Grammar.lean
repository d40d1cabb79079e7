import Medley.Pattern.Context
import Medley.Pattern.Lexer
import Medley.Text.Split
import Medley.Tree.Build

/-!
# Collections from patterns

The grammar of patterns over tokens, lowest precedence first:

* an *operation* is a chain of alternatives, joined by `AND` or by nothing, which intersect;
* a *chain of alternatives* is a run of expressions joined by `OR`, whose union it is;
* an *expression* is a sequence of positions or ids, a filter, an operation in parentheses, a negated
  expression or a reference to a stored collection.

The alternatives of an expression start with different tokens, so the first one that fits is the
only one.  A chain goes on for as long as it can.
-/

namespace Medley.Pattern

/-- The fields that a bare word is searched in, unless others are asked for. -/
def defaultFields : List String := ["artist", "album", "title"]

/-- The namespace of a reference that names none. -/
def defaultSpace : String := "Collections"

/-- The properties with a name of one letter. -/
def shortProperties : List (Char × String) :=
  [('a', "artist"), ('l', "album"), ('t', "title"), ('n', "tracknr"), ('y', "year"),
   ('g', "genre"), ('u', "url")]

/-- A step of reading tokens: what the first tokens say, and the tokens behind them. -/
abbrev Phrase := List Token → Option (Shape × List Token)

/-- The whole library. -/
def everything : Shape := Tree.everything ()

/-- What a sequence of numbers selects by. -/
inductive SequenceField where
  | position
  | id
  deriving DecidableEq, Repr

/-- The filter that compares the field of a sequence with a number. -/
def SequenceField.filter (field : SequenceField) (test : FilterTest) (value : String)
    (operand : Shape) : Shape :=
  .unary () (.withAttributes (.filter test)
    [(Key.value, value), match field with
      | .position => (Key.field, "position")
      | .id => (Key.type, "id")]) operand

/-- The integer of a text and the one below it, if there are both. -/
def boundBelow? (text : List Char) : Option Int64 :=
  (Text.readInt64? (String.ofList text)).bind fun bound =>
    if bound = Int64.minValue then none else some (bound - 1)

/-- The integer of a text and the one above it, if there are both. -/
def boundAbove? (text : List Char) : Option Int64 :=
  (Text.readInt64? (String.ofList text)).bind fun bound =>
    if bound = Int64.maxValue then none else some (bound + 1)

/-- One element of a sequence: a number, or an inclusive range with one end or both. -/
def sequenceElement? (field : SequenceField) (text : List Char) : Option Shape :=
  match Text.splitFirst? '-' text with
  | none =>
      (Text.readInt64? (String.ofList text)).map fun _ =>
        field.filter .equals (String.ofList text) everything
  | some ([], []) => none
  | some (first, []) =>
      (boundBelow? first).map fun bound => field.filter .greater (Text.writeInt64 bound) everything
  | some ([], last) =>
      (boundAbove? last).map fun bound => field.filter .smaller (Text.writeInt64 bound) everything
  | some (first, last) => do
      let below ← boundBelow? first
      let above ← boundAbove? last
      return field.filter .smaller (Text.writeInt64 above)
        (field.filter .greater (Text.writeInt64 below) everything)

/-- Join what a chain holds: a single shape stands for itself. -/
def combine (kind : Kind) : List Shape → Shape
  | [shape] => shape
  | shapes => .node () { kind } shapes

/-- The sequence of numbers that a token holds. -/
def sequenceOf? (field : SequenceField) (token : Token) : Option Shape :=
  if token.kind = .integer ∨ token.kind = .sequence then
    ((Text.splitAll ',' token.text.toList).mapM (sequenceElement? field)).map (combine .union)
  else none

/-- The name of a property that a token holds, a short name written out. -/
def propertyOf? (token : Token) : Option String :=
  match token.kind with
  | .propShort => token.text.toList.head?.map fun letter =>
      ((shortProperties.find? fun entry => entry.1 == letter).map Prod.snd).getD token.text
  | .propLong => some token.text
  | _ => none

/-- The test of a comparison with a word. -/
def testOf? (operator word : TokenKind) : Option FilterTest :=
  match operator, word with
  | .equals, .string => some .equals
  | .matches, .string => some .pattern
  | .matches, .pattern => some .pattern
  | .smaller, .integer => some .smaller
  | .greater, .integer => some .greater
  | .smallerEq, .integer => some .smallerEq
  | .greaterEq, .integer => some .greaterEq
  | _, _ => none

/-- A word searched in every field of a list. -/
def searchAll (fields : List String) (test : FilterTest) (value : String) : Shape :=
  .node () { kind := .union }
    (fields.map fun field => .filter () (.filter test) field value everything)

/-- The collection that a word refers to: a namespace before the first slash, if it is not empty,
and a name. -/
def referenceTo (word : String) : Shape :=
  let (space, name) := match Text.splitFirst? '/' word.toList with
    | none => (defaultSpace, word)
    | some ([], name) => (defaultSpace, String.ofList name)
    | some (space, name) => (String.ofList space, String.ofList name)
  .leaf () (.withAttributes .reference [(Key.space, space), (Key.reference, name)])

/-- A sequence of positions. -/
def positions : Phrase
  | token :: rest => (sequenceOf? .position token).map fun shape => (shape, rest)
  | [] => none

/-- A sequence of ids behind its symbol. -/
def ids : Phrase
  | symbol :: token :: rest =>
      if symbol.kind = .symbolId then
        (sequenceOf? .id token).map fun shape => (shape, rest)
      else none
  | _ => none

/-- The test whether a property is there. -/
def presence : Phrase
  | sign :: token :: rest =>
      if sign.kind = .has then
        (propertyOf? token).map fun field => (.has () field everything, rest)
      else none
  | _ => none

/-- The comparison of a property with a word. -/
def comparison : Phrase
  | token :: operator :: word :: rest => do
      let field ← propertyOf? token
      let test ← testOf? operator.kind word.kind
      return (.filter () (.filter test) field word.text everything, rest)
  | _ => none

/-- The pattern that stands for the whole library. -/
def loneStar : Phrase
  | token :: rest =>
      if token.kind = .pattern ∧ token.text = "*" then some (everything, rest) else none
  | [] => none

/-- A word, or a word behind a comparison without a property, searched in every field. -/
def search (fields : List String) : Phrase
  | first :: rest =>
      let found (test : FilterTest) : Phrase
        | word :: rest => if word.kind.isText then some (searchAll fields test word.text, rest)
            else none
        | [] => none
      match first.kind with
      | .equals => found .equals rest
      | .matches => found .pattern rest
      | .pattern => found .pattern (first :: rest)
      | _ => found .token (first :: rest)
  | [] => none

/-- A reference to a stored collection. -/
def reference : Phrase
  | sign :: word :: rest =>
      if sign.kind = .reference ∧ word.kind = .string then some (referenceTo word.text, rest)
      else none
  | _ => none

/-- The expressions that hold no other expression. -/
def simple (fields : List String) : Phrase := fun tokens =>
  (positions tokens).or <| (ids tokens).or <| (presence tokens).or <| (comparison tokens).or <|
    (loneStar tokens).or <| (search fields tokens).or <| reference tokens

/-- More expressions of a chain of alternatives, at most a given number, and the tokens behind
them. -/
def alternatives (expression : Phrase) : Nat → List Token → List Shape × List Token
  | 0, tokens => ([], tokens)
  | _, [] => ([], [])
  | budget + 1, sign :: tokens =>
      if sign.kind = .or then
        match expression tokens with
        | none => ([], sign :: tokens)
        | some (shape, rest) =>
            let (shapes, left) := alternatives expression budget rest
            (shape :: shapes, left)
      else ([], sign :: tokens)

/-- A chain of alternatives. -/
def orChain (expression : Phrase) : Phrase := fun tokens => do
  let (first, rest) ← expression tokens
  let (others, left) := alternatives expression rest.length rest
  return (combine .union (first :: others), left)

/-- The tokens behind a sign that joins operands, if one is there. -/
def skipAnd : List Token → List Token
  | [] => []
  | sign :: tokens => if sign.kind = .and then tokens else sign :: tokens

/-- More operands of an operation, at most a given number, and the tokens behind them. -/
def conjuncts (expression : Phrase) : Nat → List Token → List Shape × List Token
  | 0, tokens => ([], tokens)
  | budget + 1, tokens =>
      match orChain expression (skipAnd tokens) with
      | none => ([], tokens)
      | some (shape, rest) =>
          let (shapes, left) := conjuncts expression budget rest
          (shape :: shapes, left)

/-- A whole operation. -/
def operation (expression : Phrase) : Phrase := fun tokens => do
  let (first, rest) ← orChain expression tokens
  let (others, left) := conjuncts expression rest.length rest
  return (combine .intersection (first :: others), left)

/-- An operation in parentheses. -/
def group (expression : Phrase) : Phrase
  | sign :: tokens =>
      if sign.kind = .groupOpen then
        match operation expression tokens with
        | some (shape, close :: rest) =>
            if close.kind = .groupClose then some (shape, rest) else none
        | _ => none
      else none
  | [] => none

/-- An expression that excludes what follows it. -/
def negation (expression : Phrase) : Phrase
  | sign :: tokens =>
      if sign.kind = .not then
        (expression tokens).map fun (shape, rest) => (.unary () { kind := .complement } shape, rest)
      else none
  | [] => none

/-- An expression that nests no deeper than a given number of levels. -/
def expressionWithin (fields : List String) : Nat → Phrase
  | 0, tokens => simple fields tokens
  | depth + 1, tokens =>
      (simple fields tokens).or <|
        (group (expressionWithin fields depth) tokens).or <|
          negation (expressionWithin fields depth) tokens

/-- The operation at the start of some tokens.  Each level of nesting takes a token, so the number
of tokens bounds the depth. -/
def phrase (fields : List String) : Phrase := fun tokens =>
  operation (expressionWithin fields tokens.length) tokens

/-- The collection that tokens in context describe.  The pattern is what errors quote. -/
def build (fields : List String) (pattern : String) (tokens : List Token) :
    Except Error Shape :=
  let refuse (fault : PatternFault) (offset : Nat) : Except Error Shape :=
    .error { cause := .malformedPattern pattern fault, position := .atOffset offset }
  match phrase fields tokens with
  | some (shape, []) => .ok shape
  | some (_, next :: _) => refuse .unparsedRest next.offset
  | none => refuse .notAPattern ((tokens.head?.map Token.offset).getD pattern.utf8ByteSize)

/-- The collection that a pattern describes, with bare words searched in the given fields. -/
def parse (fields : List String) (pattern : String) : Except Error Shape :=
  match tokenize pattern with
  | (_, some error) => .error error
  | (tokens, none) => build fields pattern (settle tokens)

end Medley.Pattern
