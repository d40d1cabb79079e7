import Medley.Error
import Medley.Namespace
import Medley.Tree.Basic

/-!
# What an operator means

The attributes of a node are text, as they are stored.  `Operator.view` reads them into a `View`
with the parameters that the kind asks for, or says which rule the node breaks.  A view is a functor
in its operands, so a recursive function can read a node whose operands already stand for their
results.
-/

namespace Medley

/-- The name of a reference to the whole library. -/
abbrev allMedia : String := "All Media"

namespace Key

/-- The property that an operator looks at. -/
abbrev field : String := "field"

/-- What a filter compares with. -/
abbrev value : String := "value"

/-- Which field, order or form of list an operator uses. -/
abbrev type : String := "type"

/-- The direction of an order. -/
abbrev direction : String := "direction"

/-- The name of the collection that a reference stands for. -/
abbrev reference : String := "reference"

/-- The namespace of the collection that a reference stands for. -/
abbrev space : String := "namespace"

/-- How many media a limit skips. -/
abbrev start : String := "start"

/-- How many media a limit keeps. -/
abbrev length : String := "length"

/-- Whether a filter tells upper and lower case apart. -/
abbrev caseSensitive : String := "case-sensitive"

end Key

/-- What a filter looks at: the id of a medium or one of its properties. -/
inductive Field where
  | id
  | property (name : String)
  deriving DecidableEq, Repr

/-- The name that a field goes by; the id is called like a property. -/
def Field.name : Field → String
  | .id => "id"
  | .property name => name

/-- What an order sorts by. -/
inductive SortField where
  | id
  | random
  | property (name : String)
  deriving DecidableEq, Repr

/-- An operator with its parameters read, over operands of some type. -/
inductive View (ω : Type) where
  | reference (name : String) (space : Option String)
  | universe
  | union (operands : List ω)
  | intersection (operands : List ω)
  | complement (operand : ω)
  | mediaset (operand : ω)
  | has (field : String) (operand : ω)
  | filter (test : FilterTest) (field : Field) (value : String) (caseSensitive : Bool)
      (operand : ω)
  | order (field : SortField) (direction : Direction) (operand : ω)
  | limit (start length : UInt64) (operand : ω)
  | list (form : ListForm) (ids : List Int64) (operand : Option ω)
  deriving DecidableEq

namespace View

variable {ω υ : Type}

/-- The same view over the images of the operands. -/
def map (image : ω → υ) : View ω → View υ
  | .reference name space => .reference name space
  | .universe => .universe
  | .union operands => .union (operands.map image)
  | .intersection operands => .intersection (operands.map image)
  | .complement operand => .complement (image operand)
  | .mediaset operand => .mediaset (image operand)
  | .has field operand => .has field (image operand)
  | .filter test field value caseSensitive operand =>
      .filter test field value caseSensitive (image operand)
  | .order field direction operand => .order field direction (image operand)
  | .limit start length operand => .limit start length (image operand)
  | .list form ids operand => .list form ids (operand.map image)

end View

namespace Operator

variable {ω υ : Type}

/-- The value of an attribute that must be there. -/
def require (operator : Operator) (key : String) : Except Error String :=
  match operator.attributes.get? key with
  | some value => .ok value
  | none => fail (.missingAttribute operator.kind.name key)

/-- The failure of an attribute with a value that has no meaning. -/
def badValue {α : Type} (operator : Operator) (key value : String) : Except Error α :=
  fail (.badAttributeValue operator.kind.name key value)

/-- The failure of an operator with the wrong number of operands. -/
def badArity {α : Type} (operator : Operator) (expected : String) (operands : List ω) :
    Except Error α :=
  fail (.operandArity operator.kind.name expected operands.length)

/-- Refuse operands. -/
def noOperand (operator : Operator) : List ω → Except Error Unit
  | [] => .ok ()
  | operands => operator.badArity "0" operands

/-- Ask for exactly one operand. -/
def oneOperand (operator : Operator) : List ω → Except Error ω
  | [operand] => .ok operand
  | operands => operator.badArity "1" operands

/-- Ask for one operand or more. -/
def someOperands (operator : Operator) : List ω → Except Error (List ω)
  | [] => operator.badArity "at least 1" ([] : List ω)
  | operands => .ok operands

/-- An attribute that is an integer; `none` if it is absent. -/
def integer? (operator : Operator) (key : String) : Except Error (Option Int64) :=
  match operator.attributes.get? key with
  | none => .ok none
  | some value =>
      match Text.readInt64? value with
      | some number => .ok (some number)
      | none => operator.badValue key value

/-- An attribute that counts media; zero if it is absent. -/
def count (operator : Operator) (key : String) : Except Error UInt64 :=
  match operator.attributes.get? key with
  | none => .ok 0
  | some value =>
      match Text.readUInt64? value with
      | some number => .ok number
      | none => operator.badValue key value

/-- The field that a filter looks at. -/
def filterField (operator : Operator) : Except Error Field :=
  match operator.attributes.get? Key.type with
  | none => (operator.require Key.field).map .property
  | some "value" => (operator.require Key.field).map .property
  | some "id" => .ok .id
  | some other => operator.badValue Key.type other

/-- Whether the value of a filter must be an integer: in comparisons by magnitude, and where ids
are compared for equality. -/
def needsInteger (test : FilterTest) (field : Field) : Bool :=
  test.isNumeric || (field == .id && (test == .equals || test == .notEqual))

/-- Whether a filter tells upper and lower case apart. -/
def caseSensitivity (operator : Operator) : Except Error Bool :=
  match operator.attributes.get? Key.caseSensitive with
  | none => .ok false
  | some "false" => .ok false
  | some "true" => .ok true
  | some other => operator.badValue Key.caseSensitive other

/-- What an order sorts by. -/
def sortField (operator : Operator) : Except Error SortField := do
  match ← operator.require Key.type with
  | "id" => return .id
  | "random" => return .random
  | "value" => return .property (← operator.require Key.field)
  | other => operator.badValue Key.type other

/-- The direction of an order. -/
def sortDirection (operator : Operator) : Except Error Direction :=
  match operator.attributes.get? Key.direction with
  | none => .ok .ascending
  | some "ASC" => .ok .ascending
  | some "DESC" => .ok .descending
  | some other => operator.badValue Key.direction other

/-- The form of a list: its kind, unless an attribute says otherwise. -/
def listForm (operator : Operator) (form : ListForm) : Except Error ListForm :=
  match operator.attributes.get? Key.type with
  | none => .ok form
  | some "list" => .ok .list
  | some "queue" => .ok .queue
  | some "pshuffle" => .ok .partyShuffle
  | some other => operator.badValue Key.type other

/-- Read the parameters of an operator.  Operands are counted first, except in lists, and then
attributes are read one by one; the first rule broken is reported. -/
def view (operator : Operator) (operands : List ω) : Except Error (View ω) :=
  match operator.kind with
  | .reference => do
      operator.noOperand operands
      let name ← operator.require Key.reference
      let space := operator.attributes.get? Key.space
      if name ≠ allMedia ∧ space = none then
        fail (.missingAttribute operator.kind.name Key.space)
      else
        return .reference name space
  | .universe => do
      operator.noOperand operands
      return .universe
  | .union => return .union (← operator.someOperands operands)
  | .intersection => return .intersection (← operator.someOperands operands)
  | .complement => return .complement (← operator.oneOperand operands)
  | .mediaset => return .mediaset (← operator.oneOperand operands)
  | .has => do
      let operand ← operator.oneOperand operands
      return .has (← operator.require Key.field) operand
  | .filter test => do
      let operand ← operator.oneOperand operands
      let value ← operator.require Key.value
      let field ← operator.filterField
      if needsInteger test field ∧ Text.readInt64? value = none then
        operator.badValue Key.value value
      else
        return .filter test field value (← operator.caseSensitivity) operand
  | .order => do
      let operand ← operator.oneOperand operands
      let field ← operator.sortField
      return .order field (← operator.sortDirection) operand
  | .limit => do
      let operand ← operator.oneOperand operands
      let start ← operator.count Key.start
      return .limit start (← operator.count Key.length) operand
  | .list form => do
      let played ← operator.listForm form
      if form = .partyShuffle then
        return .list played operator.ids (some (← operator.oneOperand operands))
      else
        operator.noOperand operands
        return .list played operator.ids none

end Operator

namespace Tree

variable {α : Type}

/-- The root of a tree with its parameters read. -/
def view (tree : Tree α) : Except Error (View (Tree α)) := tree.operator.view tree.operands

/-- Check the rules of every node, parents before operands, and every reference to a stored
collection with a test that sees the mark of the reference. -/
def check (onReference : α → Address → Except Error Unit) : Tree α → Except Error Unit :=
  fold fun mark operator operands => do
    match ← operator.view operands with
    | .reference name space =>
        if name ≠ allMedia then
          onReference mark ⟨← Namespace.read (space.getD ""), name⟩
    | _ => pure ()
    operands.forM Prod.snd

/-- Check the rules of every node without following references. -/
def validate : Tree α → Except Error Unit := check fun _ _ => .ok ()

end Tree

end Medley
