import Medley.Pattern.Token

/-!
# Tokens in context

What a token is can depend on its neighbour: a word between a plus sign and a space names a
property, and so does a word before a spaced comparison; what is matched loosely gets wildcards at
its ends.  One pass from left to right settles this, each token being seen with the token before it
as that one has become.
-/

namespace Medley.Pattern

/-- A text with a star at either end, unless there is one already. -/
def fuzzy (text : String) : String :=
  let chars := text.toList
  let front := if chars.head? = some '*' then [] else ['*']
  let back := if chars = [] ∨ chars.getLast? = some '*' then [] else ['*']
  String.ofList (front ++ chars ++ back)

/-- A token with an integer taken as a string. -/
def Token.asString (token : Token) : Token :=
  if token.kind = .integer then { token with kind := .string } else token

/-- Two neighbours, each as the other makes it. -/
def adjust (previous current : Token) : Token × Token :=
  let previous := if current.kind.isComparison ∧ previous.kind = .string
    then { previous with kind := previous.propertyKind } else previous
  match previous.kind with
  | .has =>
      if current.kind = .string ∨ current.kind = .integer then
        (previous, { current with kind := current.propertyKind })
      else (previous, current)
  | .matches =>
      let current := current.asString
      if current.kind.isText then (previous, { current with text := fuzzy current.text })
      else (previous, current)
  | .equals =>
      if current.kind = .pattern then ({ previous with kind := .matches }, current)
      else (previous, current.asString)
  | _ => (previous, current)

/-- The tokens behind a given token, and that token, in context. -/
def settleFrom (previous : Token) : List Token → List Token
  | [] => [previous]
  | current :: rest =>
      let (previous, current) := adjust previous current
      previous :: settleFrom current rest

/-- The tokens of a pattern in context. -/
def settle : List Token → List Token
  | [] => []
  | first :: rest => settleFrom first rest

end Medley.Pattern
