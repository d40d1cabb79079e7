import Mathlib.Data.List.TakeWhile
import Medley.Text.Blank

/-!
# Names in lines

A name is written as a line and read back as the first line without the blanks at its ends.  It comes back
as it was exactly if it is one line and has no blanks there (`Text.readLine_eq_iff`).
-/

namespace Medley

namespace Text

/-- The part of a text before its first line break. -/
def firstLine (text : String) : String := String.ofList (text.toList.takeWhile (· != '\n'))

/-- The name that is read back from a line. -/
def readLine (text : String) : Option String :=
  if (trim (firstLine text)).isEmpty then none else some (trim (firstLine text))

/-- Whether a name is one line without blanks at its ends. -/
structure IsLine (name : String) : Prop where
  nonempty : name ≠ ""
  noBreak : '\n' ∉ name.toList
  trimmed : trim name = name

theorem mem_of_mem_trim {text : String} {char : Char} (member : char ∈ (trim text).toList) :
    char ∈ text.toList := by
  rw [trim, String.toList_ofList, trimWhere, List.mem_reverse] at member
  have inner := List.mem_reverse.1 ((List.dropWhile_sublist _).subset member)
  exact (List.dropWhile_sublist _).subset inner

theorem firstLine_append_break (text : String) : firstLine (text ++ "\n") = firstLine text := by
  rw [firstLine, String.toList_append, List.takeWhile_append]
  split
  · next whole =>
    rw [firstLine, (List.takeWhile_prefix _).eq_of_length whole]
    exact congrArg String.ofList (List.append_nil _)
  · rfl

theorem noBreak_firstLine (text : String) : '\n' ∉ (firstLine text).toList := by
  intro member
  rw [firstLine, String.toList_ofList] at member
  exact absurd (List.mem_takeWhile_imp member) (by decide)

theorem firstLine_of_noBreak {text : String} (noBreak : '\n' ∉ text.toList) : firstLine text = text := by
  rw [firstLine, List.takeWhile_eq_self_iff.2, String.ofList_toList]
  intro char member
  exact bne_iff_ne.2 fun same => noBreak (same ▸ member)

/-- Exactly a name that is one line without blanks at its ends is read back as it was. -/
theorem readLine_eq_iff {name : String} : readLine name = some name ↔ IsLine name := by
  unfold readLine
  constructor
  · intro reads
    split at reads
    · cases reads
    · next nonempty =>
      have trimmed := Option.some.inj reads
      have noBreak : '\n' ∉ name.toList := by
        rw [← trimmed]
        exact fun member => noBreak_firstLine name (mem_of_mem_trim member)
      rw [firstLine_of_noBreak noBreak] at trimmed nonempty
      refine ⟨?_, noBreak, trimmed⟩
      rintro rfl
      exact nonempty rfl
  · rintro ⟨nonempty, noBreak, trimmed⟩
    rw [firstLine_of_noBreak noBreak, trimmed, if_neg (by simpa using nonempty)]

end Text

end Medley
