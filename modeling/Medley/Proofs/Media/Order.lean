import Medley.Media.Order
import Medley.Proofs.Text.Numerals

/-!
# How media compare

Two media compare one way as they compare the other way round reversed.  Whether three of them fit into an
order is another matter: integers compare as numbers and everything else as texts, so a text can stand
between two integers that are the other way round as numbers.  That is the only way in which the
comparison fails to be transitive (`OrderBy.compareAll_trans_iff`).
-/

namespace Medley

/-! ## Three texts in a circle -/

/-- Compare two texts: as numbers if both hold one, else as texts. -/
def Text.order (left right : String) : Ordering :=
  match readHeldInt64? left, readHeldInt64? right with
  | some left, some right => compare left right
  | _, _ => compare left right

theorem compare_circle {α : Type} [Ord α] [Std.TransOrd α] {first second third : α}
    (there : (compare first second).isLE = true) (further : (compare second third).isLE = true)
    (back : (compare third first).isLE = true) :
    compare first second = .eq ∧ compare second third = .eq ∧ compare third first = .eq := by
  have closes {first second third : α} (there : (compare first second).isLE = true)
      (further : (compare second third).isLE = true) (back : (compare third first).isLE = true) :
      compare first second = .eq :=
    Std.OrientedCmp.isLE_antisymm there (Std.TransCmp.isLE_trans further back)
  exact ⟨closes there further back, closes further back there, closes back there further⟩

@[simp] theorem Direction.apply_ascending (ordering : Ordering) :
    Direction.ascending.apply ordering = ordering := rfl

theorem Direction.apply_swap (direction : Direction) (ordering : Ordering) :
    direction.apply ordering.swap = (direction.apply ordering).swap := by
  cases direction <;> rfl

theorem Direction.compare_circle {α : Type} [Ord α] [Std.TransOrd α] (direction : Direction)
    {first second third : α} (there : (direction.apply (compare first second)).isLE = true)
    (further : (direction.apply (compare second third)).isLE = true)
    (back : (direction.apply (compare third first)).isLE = true) :
    direction.apply (compare first second) = .eq ∧ direction.apply (compare second third) = .eq ∧
      direction.apply (compare third first) = .eq := by
  cases direction with
  | ascending => exact Medley.compare_circle there further back
  | descending =>
      have turned (left right : α) :
          Direction.descending.apply (compare left right) = compare right left :=
        Std.OrientedCmp.eq_swap.symm
      rw [turned] at there further back
      rw [turned, turned, turned]
      obtain ⟨same, same', same''⟩ := Medley.compare_circle further there back
      exact ⟨same', same, same''⟩

namespace Text

variable {first second third : String}

theorem order_of_none_left (unread : readHeldInt64? first = none) :
    order first second = compare first second := by
  rw [order, unread]

theorem order_of_none_right (unread : readHeldInt64? second = none) :
    order first second = compare first second := by
  rw [order, unread]
  cases readHeldInt64? first <;> rfl

theorem order_of_some {left right : Int64} (reads : readHeldInt64? first = some left)
    (reads' : readHeldInt64? second = some right) : order first second = compare left right := by
  rw [order, reads, reads']

theorem order_swap (left right : String) : order right left = (order left right).swap := by
  cases isLeft : readHeldInt64? left with
  | none =>
      rw [order_of_none_left isLeft, order_of_none_right isLeft]
      exact Std.OrientedCmp.eq_swap
  | some first =>
      cases isRight : readHeldInt64? right with
      | none =>
          rw [order_of_none_left isRight, order_of_none_right isRight]
          exact Std.OrientedCmp.eq_swap
      | some second =>
          rw [order_of_some isLeft isRight, order_of_some isRight isLeft]
          exact Std.OrientedCmp.eq_swap

/-- Whether a text stands between two others that hold numbers, in a direction. -/
structure Between (direction : Direction) (low other high : String) : Prop where
  numberBelow : (readHeldInt64? low).isSome = true
  noNumber : readHeldInt64? other = none
  numberAbove : (readHeldInt64? high).isSome = true
  before : direction.apply (order low other) = .lt
  behind : direction.apply (order other high) = .lt

/-- Of a text and a number one is before the other. -/
theorem order_eq_lt (there : (order first second).isLE = true)
    (differs : readHeldInt64? first ≠ readHeldInt64? second)
    (text : readHeldInt64? first = none ∨ readHeldInt64? second = none) : order first second = .lt := by
  have texts : order first second = compare first second :=
    text.elim order_of_none_left order_of_none_right
  rw [texts] at there ⊢
  cases compares : compare first second with
  | lt => rfl
  | eq => exact absurd (congrArg readHeldInt64? (Std.LawfulEqCmp.eq_of_compare compares)) differs
  | gt =>
      rw [compares] at there
      cases there

theorem Between.of_isLE (isFirst : (readHeldInt64? first).isSome = true)
    (isSecond : readHeldInt64? second = none) (isThird : (readHeldInt64? third).isSome = true)
    (there : (order first second).isLE = true) (further : (order second third).isLE = true) :
    Between .ascending first second third := by
  refine ⟨isFirst, isSecond, isThird, ?_, ?_⟩
  · rw [Direction.apply_ascending]
    exact order_eq_lt there (fun same => by simp [same, isSecond] at isFirst) (.inr isSecond)
  · rw [Direction.apply_ascending]
    exact order_eq_lt further (fun same => by simp [← same, isSecond] at isThird) (.inl isSecond)

/-- Of three texts each of which is not behind the next, either none is before the next or one stands
between two numbers. -/
theorem order_circle (there : (order first second).isLE = true)
    (further : (order second third).isLE = true) (back : (order third first).isLE = true) :
    (order first second = .eq ∧ order second third = .eq ∧ order third first = .eq) ∨
      Between .ascending first second third ∨ Between .ascending second third first ∨
        Between .ascending third first second := by
  -- With two texts among the three, each pair compares as texts.
  have texts (compares : order first second = compare first second)
      (compares' : order second third = compare second third)
      (compares'' : order third first = compare third first) :
      order first second = .eq ∧ order second third = .eq ∧ order third first = .eq := by
    rw [compares] at there ⊢
    rw [compares'] at further ⊢
    rw [compares''] at back ⊢
    exact compare_circle there further back
  cases isFirst : readHeldInt64? first with
  | none =>
      cases isSecond : readHeldInt64? second with
      | none =>
          exact .inl (texts (order_of_none_left isFirst) (order_of_none_left isSecond)
            (order_of_none_right isFirst))
      | some second' =>
          cases isThird : readHeldInt64? third with
          | none =>
              exact .inl (texts (order_of_none_left isFirst) (order_of_none_right isThird)
                (order_of_none_right isFirst))
          | some third' =>
              exact .inr (.inr (.inr (.of_isLE (isThird ▸ rfl) isFirst (isSecond ▸ rfl) back there)))
  | some first' =>
      cases isSecond : readHeldInt64? second with
      | none =>
          cases isThird : readHeldInt64? third with
          | none =>
              exact .inl (texts (order_of_none_right isSecond) (order_of_none_left isSecond)
                (order_of_none_left isThird))
          | some third' =>
              exact .inr (.inl (.of_isLE (isFirst ▸ rfl) isSecond (isThird ▸ rfl) there further))
      | some second' =>
          cases isThird : readHeldInt64? third with
          | none =>
              exact .inr (.inr (.inl (.of_isLE (isSecond ▸ rfl) isThird (isFirst ▸ rfl) further back)))
          | some third' =>
              rw [order_of_some isFirst isSecond] at there ⊢
              rw [order_of_some isSecond isThird] at further ⊢
              rw [order_of_some isThird isFirst] at back ⊢
              exact .inl (compare_circle there further back)

/-- A direction is turned by going round the circle the other way. -/
theorem directed_circle (direction : Direction)
    (there : (direction.apply (order first second)).isLE = true)
    (further : (direction.apply (order second third)).isLE = true)
    (back : (direction.apply (order third first)).isLE = true) :
    (direction.apply (order first second) = .eq ∧ direction.apply (order second third) = .eq ∧
      direction.apply (order third first) = .eq) ∨
      Between direction first second third ∨ Between direction second third first ∨
        Between direction third first second := by
  cases direction with
  | ascending =>
      simp only [Direction.apply_ascending] at there further back ⊢
      exact order_circle there further back
  | descending =>
      have turned (left right : String) :
          Direction.descending.apply (order left right) = order right left := by
        rw [order_swap]
        exact Ordering.swap_swap
      have turns {low other high : String} (between : Between .ascending high other low) :
          Between .descending low other high := by
        refine ⟨between.numberAbove, between.noNumber, between.numberBelow, ?_, ?_⟩
        · rw [turned, ← Direction.apply_ascending (order other low)]
          exact between.behind
        · rw [turned, ← Direction.apply_ascending (order high other)]
          exact between.before
      rw [turned] at there further back
      rw [turned, turned, turned]
      rcases order_circle further there back with ⟨same, same', same''⟩ | between | between | between
      · exact .inl ⟨same', same, same''⟩
      · exact .inr (.inl (turns between))
      · exact .inr (.inr (.inr (turns between)))
      · exact .inr (.inr (.inl (turns between)))

end Text

/-! ## Values -/

namespace Value

/-- The text that a value is compared by. -/
def sortText (ignoresCase : Bool) (value : Value) : String :=
  if ignoresCase then Text.lowercase value.toText else value.toText

theorem readHeldInt64?_toText (value : Value) : Text.readHeldInt64? value.toText = value.toInteger? := by
  cases value with
  | integer value => exact Text.readHeldInt64?_writeInt64 value
  | text value => rfl

/-- Ignoring case changes no number. -/
@[simp] theorem readHeldInt64?_sortText (ignoresCase : Bool) (value : Value) :
    Text.readHeldInt64? (value.sortText ignoresCase) = value.toInteger? := by
  unfold sortText
  split
  · rw [Text.readHeldInt64?_lowercase, readHeldInt64?_toText]
  · exact readHeldInt64?_toText value

/-- Values compare as their texts do. -/
theorem order_eq (ignoresCase : Bool) (left right : Value) :
    order ignoresCase left right = Text.order (left.sortText ignoresCase) (right.sortText ignoresCase) := by
  unfold order Text.order
  rw [readHeldInt64?_sortText, readHeldInt64?_sortText]
  unfold sortText
  cases left.toInteger? <;> cases right.toInteger? <;> cases ignoresCase <;> rfl

theorem order_swap (ignoresCase : Bool) (left right : Value) :
    order ignoresCase right left = (order ignoresCase left right).swap := by
  rw [order_eq, order_eq, Text.order_swap]

end Value

/-! ## Media by one key -/

namespace OrderBy

variable {order : OrderBy} {orders : List OrderBy} {first second third : Medium}

/-- The value that a key looks at, if it looks at a property. -/
def value? (order : OrderBy) (medium : Medium) : Option Value :=
  match order.key with
  | .value field _ => medium.properties.get? field
  | _ => none

/-- Whether a key has a text between two integers. -/
structure Splits (order : OrderBy) (low other high : Medium) : Prop where
  numberBelow : ((order.value? low).bind Value.toInteger?).isSome = true
  noNumber : ∃ value, order.value? other = some value ∧ value.toInteger? = none
  numberAbove : ((order.value? high).bind Value.toInteger?).isSome = true
  before : order.compare low other = .lt
  behind : order.compare other high = .lt

theorem value?_of_value {field : String} {number : Option Nat} (isKey : order.key = .value field number)
    (medium : Medium) : order.value? medium = medium.properties.get? field := by
  rw [value?, isKey]

/-- Compare what media have for a key that looks at a property. -/
def orderValues (order : OrderBy) : Option Value → Option Value → Ordering
  | some left, some right =>
      order.direction.apply (Value.order (order.collation == some "NOCASE") left right)
  | some _, none => .lt
  | none, some _ => .gt
  | none, none => .eq

theorem compare_of_value {field : String} {number : Option Nat}
    (isKey : order.key = .value field number) (left right : Medium) :
    order.compare left right = order.orderValues (order.value? left) (order.value? right) := by
  rw [value?_of_value isKey, value?_of_value isKey]
  simp only [compare, isKey]
  unfold orderValues
  rfl

theorem orderValues_swap (order : OrderBy) (left right : Option Value) :
    order.orderValues right left = (order.orderValues left right).swap := by
  cases left with
  | none => cases right <;> rfl
  | some left =>
      cases right with
      | none => rfl
      | some right => rw [orderValues, orderValues, Value.order_swap, Direction.apply_swap]

theorem compare_swap (order : OrderBy) (left right : Medium) :
    order.compare right left = (order.compare left right).swap := by
  cases isKey : order.key with
  | random => simp only [compare, isKey, Ordering.swap_eq]
  | id =>
      simp only [compare, isKey]
      rw [← Direction.apply_swap]
      exact congrArg _ Std.OrientedCmp.eq_swap
  | value field number =>
      rw [compare_of_value isKey, compare_of_value isKey]
      exact order.orderValues_swap _ _

theorem Splits.of_between {field : String} {number : Option Nat} (isKey : order.key = .value field number)
    {low other high : Value} (isFirst : order.value? first = some low)
    (isSecond : order.value? second = some other) (isThird : order.value? third = some high)
    (between : Text.Between order.direction (low.sortText (order.collation == some "NOCASE"))
      (other.sortText (order.collation == some "NOCASE"))
      (high.sortText (order.collation == some "NOCASE"))) :
    order.Splits first second third where
  numberBelow := by simpa [isFirst] using between.numberBelow
  noNumber := ⟨other, isSecond, by simpa using between.noNumber⟩
  numberAbove := by simpa [isThird] using between.numberAbove
  before := by
    rw [compare_of_value isKey, isFirst, isSecond, orderValues, Value.order_eq]
    exact between.before
  behind := by
    rw [compare_of_value isKey, isSecond, isThird, orderValues, Value.order_eq]
    exact between.behind

/-- What is not behind the next is not before it if all close a circle, unless a text stands between two
integers. -/
theorem compare_circle (there : (order.compare first second).isLE = true)
    (further : (order.compare second third).isLE = true)
    (back : (order.compare third first).isLE = true) :
    (order.compare first second = .eq ∧ order.compare second third = .eq ∧
      order.compare third first = .eq) ∨
      order.Splits first second third ∨ order.Splits second third first ∨
        order.Splits third first second := by
  cases isKey : order.key with
  | random => simp [compare, isKey]
  | id =>
      simp only [compare, isKey] at *
      exact .inl (order.direction.compare_circle there further back)
  | value field number =>
      rw [compare_of_value isKey] at there further back
      rw [compare_of_value isKey, compare_of_value isKey, compare_of_value isKey]
      cases isFirst : order.value? first with
      | none =>
          -- What lacks the value is before nothing that has it, so all three lack it.
          cases isSecond : order.value? second with
          | some value => simp [isFirst, isSecond, orderValues] at there
          | none =>
              cases isThird : order.value? third with
              | some value => simp [isSecond, isThird, orderValues] at further
              | none => exact .inl ⟨rfl, rfl, rfl⟩
      | some low =>
          cases isThird : order.value? third with
          | none => simp [isFirst, isThird, orderValues] at back
          | some high =>
              cases isSecond : order.value? second with
              | none => simp [isSecond, isThird, orderValues] at further
              | some other =>
                  simp only [isFirst, isSecond, isThird, orderValues, Value.order_eq]
                    at there further back ⊢
                  rcases Text.directed_circle order.direction there further back with
                    same | between | between | between
                  · exact .inl same
                  · exact .inr (.inl (.of_between isKey isFirst isSecond isThird between))
                  · exact .inr (.inr (.inl (.of_between isKey isSecond isThird isFirst between)))
                  · exact .inr (.inr (.inr (.of_between isKey isThird isFirst isSecond between)))

/-- What a key does not tell apart it does not tell apart from a third either. -/
theorem compare_eq_trans (there : order.compare first second = .eq)
    (further : order.compare second third = .eq) : order.compare first third = .eq := by
  have back : order.compare second first = .eq := by
    rw [compare_swap, there]
    rfl
  have back' : order.compare third second = .eq := by
    rw [compare_swap, further]
    rfl
  -- The circle closes one way round or the other, and of the two pairs that a text stands between, one
  -- would be a pair that the key does not tell apart.
  cases closes : (order.compare third first).isLE with
  | true =>
      rcases compare_circle (Ordering.isLE_of_eq_eq there) (Ordering.isLE_of_eq_eq further) closes with
        same | splits | splits | splits
      · rw [compare_swap, same.2.2]
        rfl
      · exact absurd (there.symm.trans splits.before) (by decide)
      · exact absurd (further.symm.trans splits.before) (by decide)
      · exact absurd (there.symm.trans splits.behind) (by decide)
  | false =>
      have ahead : (order.compare first third).isLE = true := by
        rw [compare_swap]
        cases compares : order.compare third first <;> simp_all
      rcases compare_circle ahead (Ordering.isLE_of_eq_eq back') (Ordering.isLE_of_eq_eq back) with
        same | splits | splits | splits
      · exact same.1
      · exact absurd (back'.symm.trans splits.behind) (by decide)
      · exact absurd (back.symm.trans splits.behind) (by decide)
      · exact absurd (back.symm.trans splits.before) (by decide)

/-! ## Media by several keys -/

@[simp] theorem compareAll_nil (left right : Medium) : compareAll [] left right = .eq := rfl

theorem compareAll_cons (order : OrderBy) (orders : List OrderBy) (left right : Medium) :
    compareAll (order :: orders) left right =
      (order.compare left right).then (compareAll orders left right) := rfl

theorem compareAll_cons_of_eq (same : order.compare first second = .eq) :
    compareAll (order :: orders) first second = compareAll orders first second := by
  rw [compareAll_cons, same]
  rfl

theorem compareAll_append_of_eq {before : List OrderBy}
    (same : ∀ earlier ∈ before, earlier.compare first second = .eq) :
    compareAll (before ++ orders) first second = compareAll orders first second := by
  induction before with
  | nil => rfl
  | cons earlier before ih =>
      rw [List.cons_append, compareAll_cons_of_eq (same earlier (.head _))]
      exact ih fun earlier member => same earlier (.tail _ member)

theorem compareAll_cons_of_lt (before : order.compare first second = .lt) :
    compareAll (order :: orders) first second = .lt := by
  rw [compareAll_cons, before]
  rfl

theorem compare_isLE_of_compareAll (isLE : (compareAll (order :: orders) first second).isLE = true) :
    (order.compare first second).isLE = true := by
  rw [compareAll_cons] at isLE
  cases compares : order.compare first second with
  | lt => rfl
  | eq => rfl
  | gt => simp [compares] at isLE

theorem compareAll_swap (orders : List OrderBy) (left right : Medium) :
    compareAll orders right left = (compareAll orders left right).swap := by
  induction orders with
  | nil => rfl
  | cons order orders ih =>
      rw [compareAll_cons, compareAll_cons, Ordering.swap_then, ih, order.compare_swap]

/-- Whether keys let a text stand between two integers that are not in this order themselves.  Keys in
front of it that do not tell the three apart do not matter. -/
def Entangled (orders : List OrderBy) (low other high : Medium) : Prop :=
  ∃ before order after, orders = before ++ order :: after ∧
    (∀ earlier ∈ before, earlier.compare low other = .eq ∧ earlier.compare other high = .eq) ∧
    order.Splits low other high ∧ compareAll (order :: after) low high ≠ .lt

theorem Entangled.of_splits (splits : order.Splits first second third)
    (back : (compareAll (order :: orders) third first).isLE = true) :
    Entangled (order :: orders) first second third := by
  refine ⟨[], order, orders, rfl, by simp, splits, fun ahead => ?_⟩
  rw [compareAll_swap, ahead] at back
  cases back

theorem Entangled.cons (same : order.compare first second = .eq) (same' : order.compare second third = .eq)
    (entangled : Entangled orders first second third) : Entangled (order :: orders) first second third := by
  obtain ⟨before, splitting, after, rfl, sames, splits, behind⟩ := entangled
  exact ⟨order :: before, splitting, after, rfl, List.forall_mem_cons.2 ⟨⟨same, same'⟩, sames⟩,
    splits, behind⟩

/-- What is not behind the next is not before it if all close a circle, unless the keys let a text stand
between two integers. -/
theorem compareAll_circle (there : (compareAll orders first second).isLE = true)
    (further : (compareAll orders second third).isLE = true)
    (back : (compareAll orders third first).isLE = true) :
    compareAll orders third first = .eq ∨ Entangled orders first second third ∨
      Entangled orders second third first ∨ Entangled orders third first second := by
  induction orders with
  | nil => exact .inl rfl
  | cons order orders ih =>
      rcases compare_circle (compare_isLE_of_compareAll there) (compare_isLE_of_compareAll further)
          (compare_isLE_of_compareAll back) with ⟨same, same', same''⟩ | splits | splits | splits
      · rw [compareAll_cons_of_eq same] at there
        rw [compareAll_cons_of_eq same'] at further
        rw [compareAll_cons_of_eq same''] at back ⊢
        rcases ih there further back with last | entangled | entangled | entangled
        · exact .inl last
        · exact .inr (.inl (entangled.cons same same'))
        · exact .inr (.inr (.inl (entangled.cons same' same'')))
        · exact .inr (.inr (.inr (entangled.cons same'' same)))
      · exact .inr (.inl (.of_splits splits back))
      · exact .inr (.inr (.inl (.of_splits splits there)))
      · exact .inr (.inr (.inr (.of_splits splits further)))

/-- Entangled media are each before the next, but the first is not before the last. -/
theorem Entangled.ordered (entangled : Entangled orders first second third) :
    compareAll orders first second = .lt ∧ compareAll orders second third = .lt ∧
      compareAll orders first third ≠ .lt := by
  obtain ⟨before, order, after, rfl, sames, splits, behind⟩ := entangled
  refine ⟨?_, ?_, ?_⟩
  · rw [compareAll_append_of_eq fun earlier member => (sames earlier member).1]
    exact compareAll_cons_of_lt splits.before
  · rw [compareAll_append_of_eq fun earlier member => (sames earlier member).2]
    exact compareAll_cons_of_lt splits.behind
  · rwa [compareAll_append_of_eq fun earlier member =>
      compare_eq_trans (sames earlier member).1 (sames earlier member).2]

/-- The comparison is transitive for three media that the keys do not entangle. -/
theorem compareAll_isLE_trans (apart : ¬ Entangled orders first second third)
    (apart' : ¬ Entangled orders second third first) (apart'' : ¬ Entangled orders third first second)
    (there : (compareAll orders first second).isLE = true)
    (further : (compareAll orders second third).isLE = true) :
    (compareAll orders first third).isLE = true := by
  have notBefore : compareAll orders third first ≠ .lt := by
    intro ahead
    rcases compareAll_circle there further (Ordering.isLE_of_eq_lt ahead) with
      level | entangled | entangled | entangled
    · exact absurd (ahead.symm.trans level) (by decide)
    · exact apart entangled
    · exact apart' entangled
    · exact apart'' entangled
  rw [compareAll_swap]
  cases compares : compareAll orders third first with
  | lt => exact absurd compares notBefore
  | eq => rfl
  | gt => rfl

/-- The comparison of media is symmetric for any keys.  Among some media it is transitive exactly if the
keys let no text stand between two integers that are not in this order themselves. -/
theorem compareAll_trans_iff (orders : List OrderBy) (media : List Medium) :
    (∀ left right, compareAll orders right left = (compareAll orders left right).swap) ∧
    ((∀ first ∈ media, ∀ second ∈ media, ∀ third ∈ media,
        (compareAll orders first second).isLE = true → (compareAll orders second third).isLE = true →
          (compareAll orders first third).isLE = true) ↔
      ∀ low ∈ media, ∀ other ∈ media, ∀ high ∈ media, ¬ Entangled orders low other high) := by
  refine ⟨compareAll_swap orders, fun transitive low isLow other isOther high isHigh entangled => ?_,
    fun apart first isFirst second isSecond third isThird =>
      compareAll_isLE_trans (apart first isFirst second isSecond third isThird)
        (apart second isSecond third isThird first isFirst)
        (apart third isThird first isFirst second isSecond)⟩
  obtain ⟨below, above, behind⟩ := entangled.ordered
  have ahead := transitive low isLow other isOther high isHigh (Ordering.isLE_of_eq_lt below)
    (Ordering.isLE_of_eq_lt above)
  -- The first is level with the last, so the last is not behind the one between them.
  have level : compareAll orders high low = .eq := by
    rw [compareAll_swap]
    cases compares : compareAll orders low high <;> simp_all
  have turned := transitive high isHigh low isLow other isOther (Ordering.isLE_of_eq_eq level)
    (Ordering.isLE_of_eq_lt below)
  rw [compareAll_swap, above] at turned
  cases turned

example : Value.order false (.integer 10) (.text "1a") = .lt ∧
    Value.order false (.text "1a") (.integer 9) = .lt ∧
    Value.order false (.integer 9) (.integer 10) = .lt := by
  decide +kernel

end OrderBy

end Medley
