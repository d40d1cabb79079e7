/-!
# Kinds of collection operators

A collection is a tree of operators.  Eight of them filter media by the value of one field, and
three list media by their ids; the others combine, order or cut collections.
-/

namespace Medley

/-- The test of a filter between the value of a field and the value given. -/
inductive FilterTest where
  | equals
  | notEqual
  | smaller
  | smallerEq
  | greater
  | greaterEq
  /-- The value matches a pattern with wildcards. -/
  | pattern
  /-- The value contains a word. -/
  | token
  deriving DecidableEq, Repr

/-- Whether the test compares by magnitude, so that its value must be an integer. -/
def FilterTest.isNumeric : FilterTest → Bool
  | .smaller | .smallerEq | .greater | .greaterEq => true
  | .equals | .notEqual | .pattern | .token => false

/-- How a list of media is played. -/
inductive ListForm where
  | list
  | queue
  | partyShuffle
  deriving DecidableEq, Repr

/-- The operator at a node of a collection. -/
inductive Kind where
  /-- Another stored collection, by name. -/
  | reference
  /-- The whole library. -/
  | universe
  | union
  | intersection
  | complement
  /-- Media that have a property. -/
  | has
  | filter (test : FilterTest)
  | order
  | limit
  /-- A collection taken as a set, without order or limit. -/
  | mediaset
  | list (form : ListForm)
  deriving DecidableEq, Repr

namespace Kind

/-- Every kind, in the order of the numeric codes. -/
def all : List Kind :=
  [.reference, .universe, .union, .intersection, .complement, .has,
   .filter .equals, .filter .notEqual, .filter .smaller, .filter .smallerEq,
   .filter .greater, .filter .greaterEq, .filter .pattern, .filter .token,
   .order, .limit, .mediaset, .list .list, .list .queue, .list .partyShuffle]

@[simp] theorem mem_all (kind : Kind) : kind ∈ all := by
  cases kind with
  | filter test => cases test <;> decide
  | list form => cases form <;> decide
  | _ => decide

/-- The word for a kind in records and messages. -/
def name : Kind → String
  | .reference => "reference"
  | .universe => "universe"
  | .union => "union"
  | .intersection => "intersection"
  | .complement => "complement"
  | .has => "has"
  | .filter .equals => "equals"
  | .filter .notEqual => "notequal"
  | .filter .smaller => "smaller"
  | .filter .smallerEq => "smallereq"
  | .filter .greater => "greater"
  | .filter .greaterEq => "greatereq"
  | .filter .pattern => "match"
  | .filter .token => "token"
  | .order => "order"
  | .limit => "limit"
  | .mediaset => "mediaset"
  | .list .list => "idlist"
  | .list .queue => "queue"
  | .list .partyShuffle => "partyshuffle"

/-- The kind that a word names. -/
def ofName? (word : String) : Option Kind := all.find? fun kind => kind.name == word

@[simp] theorem ofName?_name (kind : Kind) : ofName? kind.name = some kind := by
  cases kind with
  | filter test => cases test <;> decide
  | list form => cases form <;> decide
  | _ => decide

theorem name_injective {left right : Kind} (equal : left.name = right.name) : left = right := by
  have same : ofName? left.name = ofName? right.name := congrArg ofName? equal
  simpa using same

/-- The number of a kind: its place in the list of all kinds. -/
def code (kind : Kind) : Nat := all.idxOf kind

/-- The kind that a number stands for. -/
def ofCode? (code : Nat) : Option Kind := all[code]?

@[simp] theorem ofCode?_code (kind : Kind) : ofCode? kind.code = some kind := by
  cases kind with
  | filter test => cases test <;> decide
  | list form => cases form <;> decide
  | _ => decide

/-- Whether a kind tests the value of a field. -/
def isFilter : Kind → Bool
  | .filter _ => true
  | _ => false

/-- Whether a kind lists media by their ids. -/
def isList : Kind → Bool
  | .list _ => true
  | _ => false

end Kind

/-- The direction of an order. -/
inductive Direction where
  | ascending
  | descending
  deriving DecidableEq, Repr

end Medley
