import Mathlib.Data.List.Forall2
import Medley.Media.Evaluation
import Medley.Query.Compile

/-!
# Compilations that agree

Two compilations agree if they register the same fields, fail alike and give related results.  A
lenient agreement asks nothing where the first one fails.  Related predicates are those of a
congruence: equal ones, or ones that are true of the same media.
-/

namespace Medley.Compiling

variable {α β γ δ : Type} {related : α → β → Prop} {lenient : Prop}

/-- How the results of two compilations agree. -/
inductive Agree (related : α → β → Prop) (lenient : Prop) :
    Except Error (α × AliasTable) → Except Error (β × AliasTable) → Prop where
  | ok {left : α} {right : β} (table : AliasTable) (same : related left right) :
      Agree related lenient (.ok (left, table)) (.ok (right, table))
  | error (error : Error) : Agree related lenient (.error error) (.error error)
  | lenient (allowed : lenient) (error : Error) (other : Except Error (β × AliasTable)) :
      Agree related lenient (.error error) other

/-- Two compilations agree if they do so on every alias table. -/
def Agrees (related : α → β → Prop) (lenient : Prop) (left : Compiling α) (right : Compiling β) :
    Prop :=
  ∀ table, Agree related lenient (left table) (right table)

namespace Agrees

theorem pure {left : α} {right : β} (same : related left right) :
    Agrees related lenient (Pure.pure left) (Pure.pure right) :=
  fun table => .ok table same

theorem throw (error : Error) :
    Agrees related lenient (MonadExcept.throw error : Compiling α) (MonadExcept.throw error) :=
  fun _ => .error error

theorem of_throw (allowed : lenient) (error : Error) (right : Compiling β) :
    Agrees related lenient (MonadExcept.throw error : Compiling α) right :=
  fun table => .lenient allowed error (right table)

theorem refl {action : Compiling α} : Agrees Eq lenient action action := by
  intro table
  cases action table with
  | error error => exact .error error
  | ok result => exact .ok result.2 rfl

/-- Agreement on equal results that is not lenient is equality. -/
theorem eq {left right : Compiling α} (agrees : Agrees Eq False left right) : left = right := by
  funext table
  cases h : left table <;> cases h' : right table <;> have step := agrees table <;>
    rw [h, h'] at step <;> cases step
  · rfl
  · contradiction
  · contradiction
  · next same => cases same; rfl

theorem bind {relatedAfter : γ → δ → Prop} {left : Compiling α} {right : Compiling β}
    {next : α → Compiling γ} {next' : β → Compiling δ} (first : Agrees related lenient left right)
    (second : ∀ value value', related value value' →
      Agrees relatedAfter lenient (next value) (next' value')) :
    Agrees relatedAfter lenient (left >>= next) (right >>= next') := by
  intro table
  have step := first table
  simp only [Bind.bind, StateT.bind]
  generalize left table = before at step
  generalize right table = after at step
  cases step with
  | ok table same => exact second _ _ same table
  | error error => exact .error error
  | lenient allowed error other => exact .lenient allowed error _

/-- Compilations that agree one by one agree as a sequence. -/
theorem mapM {ι : Type} {left : ι → Compiling α} {right : ι → Compiling β} {items : List ι}
    (each : ∀ item ∈ items, Agrees related lenient (left item) (right item)) :
    Agrees (List.Forall₂ related) lenient (items.mapM left) (items.mapM right) := by
  induction items with
  | nil => exact pure .nil
  | cons item rest ih =>
      rw [List.mapM_cons, List.mapM_cons]
      refine (each item (.head _)).bind fun value value' same => ?_
      refine (ih fun other member => each other (.tail _ member)).bind fun values values' alike => ?_
      exact pure (.cons same alike)

end Agrees

end Medley.Compiling

namespace Medley.Predicate

/-- A relation between predicates that is kept by everything that is built from them. -/
structure Congruence (related : Predicate → Predicate → Prop) : Prop where
  refl : ∀ predicate, related predicate predicate
  all : ∀ {lefts rights}, List.Forall₂ related lefts rights → related (.all lefts) (.all rights)
  any : ∀ {lefts rights}, List.Forall₂ related lefts rights → related (.any lefts) (.any rights)
  not : ∀ {left right}, related left right → related (.not left) (.not right)

/-- A relation that sees no difference between a filter and the filter over everything. -/
def Absorbs (related : Predicate → Predicate → Prop) : Prop :=
  ∀ {filter operand}, related operand .always → related (.all [filter, operand]) filter

theorem congruence_eq : Congruence Eq where
  refl _ := rfl
  all same := by rw [List.forall₂_eq_eq_eq] at same; rw [same]
  any same := by rw [List.forall₂_eq_eq_eq] at same; rw [same]
  not same := by rw [same]

/-- Two predicates that are true of the same media, and fail on the same ones. -/
def Equivalent (left right : Predicate) : Prop :=
  ∀ medium, left.evaluate medium = right.evaluate medium

theorem evaluateAll_congr {lefts rights : List Predicate} (same : List.Forall₂ Equivalent lefts rights)
    (medium : Medium) : evaluateAll medium lefts = evaluateAll medium rights := by
  induction same with
  | nil => rfl
  | cons head _ ih => rw [evaluateAll, evaluateAll, head medium, ih]

theorem evaluateAny_congr {lefts rights : List Predicate} (same : List.Forall₂ Equivalent lefts rights)
    (medium : Medium) : evaluateAny medium lefts = evaluateAny medium rights := by
  induction same with
  | nil => rfl
  | cons head _ ih => rw [evaluateAny, evaluateAny, head medium, ih]

theorem congruence_equivalent : Congruence Equivalent where
  refl _ _ := rfl
  all same medium := by rw [evaluate, evaluate, evaluateAll_congr same]
  any same medium := by rw [evaluate, evaluate, evaluateAny_congr same]
  not same medium := by rw [evaluate, evaluate, same medium]

/-- A filter over everything is true where the filter is. -/
theorem absorbs_equivalent : Absorbs Equivalent := by
  intro filter operand everything medium
  have holds : operand.evaluate medium = .ok (some true) := (everything medium).trans (by rw [evaluate])
  rw [evaluate, evaluateAll, evaluateAll, holds, evaluateAll]
  cases filter.evaluate medium with
  | error error => rfl
  | ok truth =>
      match truth with
      | none => rfl
      | some true => rfl
      | some false => rfl

end Medley.Predicate
