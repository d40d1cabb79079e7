import Medley.Error
import Medley.Media.Glob
import Medley.Media.Value
import Medley.Query.Predicate

/-!
# Predicates on a medium

A predicate on a medium is true, false or, where it compares a property that the medium lacks,
unknown.  The connectives are those of three-valued logic.  Operands are evaluated from left to
right until the result is certain, so an invalid pattern fails only where it is reached.
-/

namespace Medley

/-- A truth value; `none` is unknown. -/
abbrev Truth := Option Bool

namespace Truth

/-- Whether both are true. -/
def and : Truth → Truth → Truth
  | some false, _ => some false
  | _, some false => some false
  | some true, some true => some true
  | _, _ => none

/-- Whether one of both is true. -/
def or : Truth → Truth → Truth
  | some true, _ => some true
  | _, some true => some true
  | some false, some false => some false
  | _, _ => none

/-- Whether the other is false. -/
def not (truth : Truth) : Truth := truth.map (!·)

end Truth

/-- A medium: its id and its properties. -/
structure Medium where
  id : Int64
  properties : Properties

/-- The value of a column for a medium. -/
def Medium.value? (medium : Medium) : Column → Option Value
  | .id => some (.integer medium.id)
  | .value _ field => medium.properties.get? field

/-- The integer that a literal is or holds as a text. -/
def Literal.toInteger? : Literal → Option Int64
  | .integer value => some value
  | .text value => Text.readHeldInt64? value

/-- Whether two texts are equal, for ASCII letters perhaps apart from their case. -/
def sameText (caseSensitive : Bool) (left right : String) : Bool :=
  if caseSensitive then left == right else left.toLower == right.toLower

namespace Value

/-- Whether a value equals a literal: as an integer if the literal is one, else as a text. -/
def equals (value : Value) (literal : Literal) (caseSensitive : Bool) : Bool :=
  match literal with
  | .integer number => value.toInteger? == some number
  | .text wanted => sameText caseSensitive value.toText wanted

/-- Whether a value and a literal compare in a given way as integers; unknown if one is none. -/
def magnitude (test : Int64 → Int64 → Bool) (value : Value) (literal : Literal) : Truth := do
  return test (← value.toInteger?) (← literal.toInteger?)

/-- Whether the text of a value matches a wildcard pattern. -/
def isLike (caseSensitive : Bool) (pattern : String) (value : Value) : Except Error Truth :=
  match Glob.parse pattern with
  | .ok tokens => .ok (some (Glob.isMatch caseSensitive tokens value.toText))
  | .error error =>
      fail (.executionFailed ("Invalid match pattern '" ++ pattern ++ "': " ++ error.render))

/-- Compare a value with a literal. -/
def compare (value : Value) (test : Comparison) (literal : Literal) (caseSensitive : Bool) :
    Except Error Truth :=
  match test with
  | .equals => .ok (some (value.equals literal caseSensitive))
  | .notEqual => .ok (some (!value.equals literal caseSensitive))
  | .smaller => .ok (magnitude (· < ·) value literal)
  | .smallerEq => .ok (magnitude (· ≤ ·) value literal)
  | .greater => .ok (magnitude (· > ·) value literal)
  | .greaterEq => .ok (magnitude (· ≥ ·) value literal)
  | .like => value.isLike false (Glob.ofLike literal.toText)
  | .glob => value.isLike true literal.toText

end Value

namespace Predicate

mutual

/-- Evaluate a predicate on a medium. -/
def evaluate (medium : Medium) : Predicate → Except Error Truth
  | always => .ok (some true)
  | never => .ok (some false)
  | all operands => evaluateAll medium operands
  | any operands => evaluateAny medium operands
  | not operand => return (← evaluate medium operand).not
  | has column => .ok (some (medium.value? column).isSome)
  | inIds ids => .ok (some (ids.contains medium.id))
  | compare column test literal caseSensitive =>
      match medium.value? column with
      | none => .ok none
      | some value => value.compare test literal caseSensitive

/-- Evaluate predicates up to the first one that is false. -/
def evaluateAll (medium : Medium) : List Predicate → Except Error Truth
  | [] => .ok (some true)
  | operand :: rest => do
      match ← evaluate medium operand with
      | some false => return some false
      | truth => return Truth.and truth (← evaluateAll medium rest)

/-- Evaluate predicates up to the first one that is true. -/
def evaluateAny (medium : Medium) : List Predicate → Except Error Truth
  | [] => .ok (some false)
  | operand :: rest => do
      match ← evaluate medium operand with
      | some true => return some true
      | truth => return Truth.or truth (← evaluateAny medium rest)

end

end Predicate

end Medley
