import Medley.Media.Evaluation
import Medley.Query.Compile

/-!
# What collections mean

A collection means, for every medium, whether it belongs to it, in three-valued logic: unions,
intersections and complements are its connectives, a filter is its own test together with its operand,
and a reference means what the collection that it leads to means.  Besides, a collection asks media for
some of their properties: `Meaning.conditions` are the filters that decide, in the order of the tree.
What stands below a filter over everything or in a party shuffle is not looked at, so it adds none.
-/

namespace Medley

/-- The value that a medium has under the name of a field: its id or one of its properties. -/
def Medium.field? (medium : Medium) (field : String) : Option Value :=
  if field = "id" then some (.integer medium.id) else medium.properties.get? field

/-- What a filter tests by itself, on the field of a name. -/
inductive Condition where
  | has (field : String)
  | compares (test : FilterTest) (field value : String) (caseSensitive : Bool)

namespace Condition

/-- The name of the field that is tested. -/
def field : Condition → String
  | .has field => field
  | .compares _ field _ _ => field

/-- Whether media that lack the field are considered. -/
def isOptional : Condition → Bool
  | .has _ => true
  | .compares _ _ _ _ => false

/-- The property that media must have to be considered: that of a comparison. -/
def needed? (condition : Condition) : Option String :=
  if condition.isOptional ∨ condition.field = "id" then none else some condition.field

theorem needed?_eq_some {condition : Condition} {property : String} :
    condition.needed? = some property ↔
      condition.isOptional = false ∧ property = condition.field ∧ condition.field ≠ "id" := by
  unfold needed?
  cases condition.isOptional <;> by_cases isId : condition.field = "id" <;> simp [isId, eq_comm]

/-- Whether a value is the one that is wanted: as an integer if ids are compared with one, else as a
text. -/
def isWanted (field wanted : String) (caseSensitive : Bool) (value : Value) : Bool :=
  match if field = "id" then Text.readInt64? wanted else none with
  | some number => value.toInteger? == some number
  | none => sameText caseSensitive value.toText wanted

/-- How a value compares with the one that is wanted as an integer; unknown if one is none. -/
def measures (test : Int64 → Int64 → Bool) (wanted : String) (value : Value) : Truth := do
  return test (← value.toInteger?) (← Text.readInt64? wanted)

/-- The pattern of a filter with the wildcards of SQL. -/
def likePattern (wanted : String) : String :=
  wanted.map fun char => if char = '*' then '%' else if char = '?' then '_' else char

/-- What a comparison says of a value.  Only patterns can fail, namely if they are not well-formed. -/
def judgeValue (test : FilterTest) (field wanted : String) (caseSensitive : Bool) (value : Value) :
    Except Error Truth :=
  match test with
  | .equals => .ok (some (isWanted field wanted caseSensitive value))
  | .notEqual => .ok (some (!isWanted field wanted caseSensitive value))
  | .smaller => .ok (measures (· < ·) wanted value)
  | .smallerEq => .ok (measures (· ≤ ·) wanted value)
  | .greater => .ok (measures (· > ·) wanted value)
  | .greaterEq => .ok (measures (· ≥ ·) wanted value)
  | .pattern =>
      if caseSensitive then value.isLike true wanted
      else value.isLike false (Glob.ofLike (likePattern wanted))
  | .token => value.isLike false (Glob.ofLike ("%" ++ wanted ++ "%"))

/-- What a filter says of a medium: nothing is known of values that are missing, except that they
are. -/
def judge (medium : Medium) : Condition → Except Error Truth
  | .has field => .ok (some (medium.field? field).isSome)
  | .compares test field wanted caseSensitive =>
      match medium.field? field with
      | none => .ok none
      | some value => judgeValue test field wanted caseSensitive value

/-- Whether a filter has an answer for a medium: always, unless its pattern is not well-formed. -/
def Judges (condition : Condition) (medium : Medium) : Prop :=
  ∃ truth, condition.judge medium = .ok truth

/-- The answer of a filter for a medium. -/
def truth (condition : Condition) (medium : Medium) : Truth :=
  match condition.judge medium with
  | .ok truth => truth
  | .error _ => none

theorem Judges.eq {condition : Condition} {medium : Medium} (judges : condition.Judges medium) :
    condition.judge medium = .ok (condition.truth medium) := by
  obtain ⟨truth, same⟩ := judges
  rw [Condition.truth, same]

/-- Only patterns may have no answer. -/
theorem judges_compares (test : FilterTest) (noPattern : test ≠ .pattern) (noToken : test ≠ .token)
    (field value : String) (caseSensitive : Bool) (medium : Medium) :
    (compares test field value caseSensitive).Judges medium := by
  unfold Judges
  rw [judge]
  cases medium.field? field with
  | none => exact ⟨none, rfl⟩
  | some found =>
      cases test with
      | pattern => exact absurd rfl noPattern
      | token => exact absurd rfl noToken
      | _ => exact ⟨_, rfl⟩

end Condition

/-- What a collection means: the filters that media are put to, and which media belong to it. -/
structure Meaning where
  conditions : List Condition
  truth : Medium → Truth

namespace Meaning

/-- The whole library. -/
def everything : Meaning := ⟨[], fun _ => some true⟩

/-- What nothing is known of. -/
def unknown : Meaning := ⟨[], fun _ => none⟩

/-- The media with certain ids. -/
def listed (ids : List Int64) : Meaning := ⟨[], fun medium => some (ids.contains medium.id)⟩

/-- The media that belong to all of several collections. -/
def all (operands : List Meaning) : Meaning where
  conditions := operands.flatMap conditions
  truth medium := operands.foldr (fun operand rest => (operand.truth medium).and rest) (some true)

/-- The media that belong to one of several collections. -/
def any (operands : List Meaning) : Meaning where
  conditions := operands.flatMap conditions
  truth medium := operands.foldr (fun operand rest => (operand.truth medium).or rest) (some false)

/-- The media that do not belong to a collection. -/
def complement (operand : Meaning) : Meaning where
  conditions := operand.conditions
  truth medium := (operand.truth medium).not

/-- The media of a collection that pass a filter. -/
def filtered (condition : Condition) (operand : Meaning) : Meaning where
  conditions := condition :: operand.conditions
  truth medium := (condition.truth medium).and (operand.truth medium)

end Meaning

/-- What a node means, given what its operands mean. -/
def View.meaning (onReference : Address → Meaning) : View Meaning → Meaning
  | .reference name space =>
      if name = allMedia then .everything
      else match Namespace.read (space.getD "") with
        | .ok space => onReference ⟨space, name⟩
        | .error _ => .unknown
  | .universe => .everything
  | .union operands => .any operands
  | .intersection operands => .all operands
  | .complement operand => operand.complement
  | .mediaset operand => operand
  | .has field operand => operand.filtered (.has field)
  | .filter test field value caseSensitive operand =>
      operand.filtered (.compares test field.name value caseSensitive)
  | .order _ _ operand => operand
  | .limit _ _ operand => operand
  | .list _ ids _ => .listed ids

namespace Tree

/-- What a tree means, given what the references in it mean.  Of a node that breaks the rules of its
kind nothing is known. -/
def meaning (onReference : Option Handle → Address → Meaning) : Node → Meaning :=
  fold fun mark operator operands =>
    if (Tree.leaf mark operator).isEverything then .everything
    else match operator.view (operands.map Prod.snd) with
      | .ok view => view.meaning (onReference mark.link)
      | .error _ => .unknown

theorem meaning_node (onReference : Option Handle → Address → Meaning) (mark : Mark)
    (operator : Operator) (operands : List Node) :
    meaning onReference (.node mark operator operands) =
      if (Tree.leaf mark operator).isEverything then .everything
      else match operator.view (operands.map (meaning onReference)) with
        | .ok view => view.meaning (onReference mark.link)
        | .error _ => .unknown := by
  simp only [meaning, fold_node, List.map_map]
  rfl

theorem meaning_everything {node : Node} (everything : node.isEverything = true)
    (onReference : Option Handle → Address → Meaning) : node.meaning onReference = .everything := by
  obtain ⟨mark, operator, operands⟩ := node
  have whole : (Tree.leaf mark operator).isEverything = true := everything
  rw [meaning_node, if_pos whole]

end Tree

namespace State

/-- What a tree means, with references followed a limited number of times. -/
def meaningWithin (state : State) : Nat → Node → Meaning
  | 0 => Tree.meaning fun _ _ => .unknown
  | budget + 1 => Tree.meaning fun link address =>
      match (state.follow link address).bind state.resolve with
      | none => .unknown
      | some target => state.meaningWithin budget target

/-- What a tree means.  A path of references that meets no collection twice enters every slot at most
once, so one more than their number is enough; `State.meaning_eq` is the recursion without a limit. -/
def meaning (state : State) : Node → Meaning := state.meaningWithin (state.slots.length + 1)

end State

end Medley
