/-!
# Splitting at separators

Texts cut at one separator, and texts taken apart at every separator.
-/

namespace Medley.Text

variable {α : Type} [DecidableEq α]

/-- What stands before and behind the first separator; `none` without a separator. -/
def splitFirst? (separator : α) : List α → Option (List α × List α)
  | [] => none
  | element :: rest =>
      if element = separator then some ([], rest)
      else (splitFirst? separator rest).map fun (before, behind) => (element :: before, behind)

/-- The stretches between separators.  There is one more stretch than separators. -/
def splitAll (separator : α) : List α → List (List α)
  | [] => [[]]
  | element :: rest =>
      if element = separator then [] :: splitAll separator rest
      else match splitAll separator rest with
        | [] => [[element]]
        | stretch :: stretches => (element :: stretch) :: stretches

/-- The two sides of the first separator put together are the text. -/
theorem eq_of_splitFirst? {separator : α} {text before behind : List α}
    (split : splitFirst? separator text = some (before, behind)) :
    text = before ++ separator :: behind ∧ separator ∉ before := by
  induction text generalizing before with
  | nil => simp [splitFirst?] at split
  | cons element rest ih =>
      unfold splitFirst? at split
      split at split
      · next equal =>
        simp only [Option.some.injEq, Prod.mk.injEq] at split
        obtain ⟨rfl, rfl⟩ := split
        simp [equal]
      · next different =>
        obtain ⟨⟨inner, behind'⟩, found, equal⟩ := Option.map_eq_some_iff.1 split
        simp only [Prod.mk.injEq] at equal
        obtain ⟨rfl, rfl⟩ := equal
        obtain ⟨rfl, absent⟩ := ih found
        refine ⟨rfl, fun member => ?_⟩
        rcases List.mem_cons.1 member with here | there
        · exact different here.symm
        · exact absent there

theorem splitFirst?_eq_none_iff {separator : α} {text : List α} :
    splitFirst? separator text = none ↔ separator ∉ text := by
  induction text with
  | nil => simp [splitFirst?]
  | cons element rest ih =>
      unfold splitFirst?
      split
      · next equal => simp [equal]
      · next different => simp [ih, Ne.symm different]

theorem splitFirst?_append {separator : α} {text behind : List α} (plain : separator ∉ text) :
    splitFirst? separator (text ++ separator :: behind) = some (text, behind) := by
  induction text with
  | nil => simp [splitFirst?]
  | cons element rest ih =>
      simp only [List.mem_cons, not_or] at plain
      rw [List.cons_append, splitFirst?, if_neg (Ne.symm plain.1), ih plain.2]
      rfl

theorem splitAll_of_not_mem {separator : α} {text : List α} (plain : separator ∉ text) :
    splitAll separator text = [text] := by
  induction text with
  | nil => rfl
  | cons element rest ih =>
      simp only [List.mem_cons, not_or] at plain
      rw [splitAll, if_neg (Ne.symm plain.1), ih plain.2]

theorem splitAll_append {separator : α} {text behind : List α} (plain : separator ∉ text) :
    splitAll separator (text ++ separator :: behind) = text :: splitAll separator behind := by
  induction text with
  | nil => rw [List.nil_append, splitAll, if_pos rfl]
  | cons element rest ih =>
      simp only [List.mem_cons, not_or] at plain
      rw [List.cons_append, splitAll, if_neg (Ne.symm plain.1), ih plain.2]

end Medley.Text
