import Medley.Config.Expansion
import Medley.Text.Split

/-!
# What variables expand to

A text can be cut in exactly one way into stretches in which no reference opens and references that end at
the next closing brace (`Cut.exists_unique`).  The cut depends on the text alone, and the values of the
variables are put into it, so that nothing in a value or at its ends is taken for a reference
(`expand_cut`).
-/

namespace Medley

/-- A text cut into stretches and references to variables. -/
inductive Cut where
  /-- A stretch up to the end. -/
  | stretch (text : List Char)
  /-- A stretch, and a reference without an end. -/
  | unclosed (before rest : List Char)
  /-- A stretch, a reference, and what is behind it. -/
  | reference (before name : List Char) (behind : Cut)
  deriving DecidableEq

/-- What a reference opens with. -/
def opening : List Char := ['$', '\x7b']

namespace Cut

/-- The text that is cut. -/
def written : Cut → List Char
  | stretch text => text
  | unclosed before rest => before ++ opening ++ rest
  | reference before name behind => before ++ opening ++ (name ++ '\x7d' :: behind.written)

/-- Whether references stand wherever one opens, and end as soon as they can. -/
def IsProper : Cut → Prop
  | stretch text => ¬ opening <:+: text
  | unclosed before rest => ¬ opening <:+: before ∧ '\x7d' ∉ rest
  | reference before name behind =>
      ¬ opening <:+: before ∧ '\x7d' ∉ name ∧ behind.IsProper

/-- The text with values in place of the references; a variable that is not set has none. -/
def filled (environment : Environment) : Cut → List Char
  | stretch text => text
  | unclosed before _ => before
  | reference before name behind =>
      before ++ (environment (String.ofList name)).elim [] String.toList ++ behind.filled environment

/-- What is wrong with references of a text, from left to right. -/
def complaints (environment : Environment) (text : String) : Cut → List String
  | stretch _ => []
  | unclosed _ _ => ["'$\x7b' without closing '\x7d' in '" ++ text ++ "'"]
  | reference _ name behind =>
      let others := behind.complaints environment text
      match environment (String.ofList name) with
      | none => ("environment variable " ++ String.ofList name ++ " is not set") :: others
      | some _ => others

end Cut

section Cutting

variable {text before before' rest rest' name name' : List Char}

/-! ## There is one cut -/

/-- A text in which a reference opens has a place where the first one does. -/
theorem exists_first_opening (text : List Char) : ¬ opening <:+: text ∨
    ∃ before rest, text = before ++ opening ++ rest ∧ ¬ opening <:+: before := by
  induction text with
  | nil =>
      left
      intro inside
      cases List.eq_nil_of_infix_nil inside
  | cons char text ih =>
      by_cases here : opening <+: char :: text
      · right
        obtain ⟨rest, same⟩ := here
        refine ⟨[], rest, same.symm, ?_⟩
        intro inside
        cases List.eq_nil_of_infix_nil inside
      · cases ih with
        | inl plain =>
            left
            intro inside
            exact (List.infix_cons_iff.1 inside).elim here plain
        | inr opens =>
            right
            obtain ⟨before, rest, same, plain⟩ := opens
            refine ⟨char :: before, rest, by rw [same]; rfl, ?_⟩
            intro inside
            cases List.infix_cons_iff.1 inside with
            | inl start =>
                apply here
                rw [same, List.append_assoc, ← List.cons_append]
                exact start.trans (List.prefix_append _ _)
            | inr later => exact plain later

theorem infix_opening (before rest : List Char) : opening <:+: before ++ opening ++ rest :=
  ⟨before, rest, rfl⟩

/-- Two openings in one place are the same, or the first is over before the second: no opening starts with
what another one ends with. -/
theorem eq_nil_or_prefix_of_opening {gap : List Char}
    (same : opening ++ rest = gap ++ (opening ++ rest')) : gap = [] ∨ opening <+: gap := by
  match gap with
  | [] => exact .inl rfl
  | [char] => simp [opening] at same
  | first :: second :: others =>
      right
      have chars : '$' = first ∧ '\x7b' = second ∧ rest = others ++ (opening ++ rest') := by
        simpa [opening] using same
      rw [← chars.1, ← chars.2.1]
      exact List.prefix_append opening others

theorem append_opening_inj (plain : ¬ opening <:+: before) (plain' : ¬ opening <:+: before')
    (same : before ++ opening ++ rest = before' ++ opening ++ rest') :
    before = before' ∧ rest = rest' := by
  rw [List.append_assoc, List.append_assoc] at same
  cases List.append_eq_append_iff.1 same with
  | inl longer =>
      obtain ⟨gap, goesOn, shifted⟩ := longer
      cases eq_nil_or_prefix_of_opening shifted with
      | inl none =>
          rw [none] at goesOn shifted
          exact ⟨(goesOn.trans (List.append_nil _)).symm, List.append_cancel_left shifted⟩
      | inr start =>
          rw [goesOn] at plain'
          exact (plain' (start.isInfix.trans (List.suffix_append _ _).isInfix)).elim
  | inr longer =>
      obtain ⟨gap, goesOn, shifted⟩ := longer
      cases eq_nil_or_prefix_of_opening shifted with
      | inl none =>
          rw [none] at goesOn shifted
          exact ⟨goesOn.trans (List.append_nil _), (List.append_cancel_left shifted).symm⟩
      | inr start =>
          rw [goesOn] at plain
          exact (plain (start.isInfix.trans (List.suffix_append _ _).isInfix)).elim

theorem append_closing_inj (plain : '\x7d' ∉ name) (plain' : '\x7d' ∉ name')
    (same : name ++ '\x7d' :: rest = name' ++ '\x7d' :: rest') : name = name' ∧ rest = rest' := by
  have splits : Text.splitFirst? '\x7d' (name ++ '\x7d' :: rest) = some (name, rest) :=
    Text.splitFirst?_append plain
  rw [same, Text.splitFirst?_append plain'] at splits
  cases splits
  exact ⟨rfl, rfl⟩

namespace Cut

variable {cut other : Cut}

/-- A proper cut is the only one of its text. -/
theorem written_inj (proper : cut.IsProper) (proper' : other.IsProper)
    (same : cut.written = other.written) : cut = other := by
  induction cut generalizing other with
  | stretch text =>
      have plain : ¬ opening <:+: (stretch text).written := proper
      cases other with
      | stretch text' => exact congrArg stretch same
      | unclosed before' rest' => exact (plain (same ▸ infix_opening ..)).elim
      | reference before' name' behind' => exact (plain (same ▸ infix_opening ..)).elim
  | unclosed before rest =>
      cases other with
      | stretch text' =>
          have plain' : ¬ opening <:+: (stretch text').written := proper'
          exact (plain' (same ▸ infix_opening ..)).elim
      | unclosed before' rest' =>
          have both := append_opening_inj proper.1 proper'.1 same
          rw [both.1, both.2]
      | reference before' name' behind' =>
          have both := append_opening_inj proper.1 proper'.1 same
          have closes : '\x7d' ∈ rest := by simp [both.2]
          exact (proper.2 closes).elim
  | reference before name behind ih =>
      cases other with
      | stretch text' =>
          have plain' : ¬ opening <:+: (stretch text').written := proper'
          exact (plain' (same ▸ infix_opening ..)).elim
      | unclosed before' rest' =>
          have both := append_opening_inj proper.1 proper'.1 same
          have closes : '\x7d' ∈ rest' := by simp [← both.2]
          exact (proper'.2 closes).elim
      | reference before' name' behind' =>
          have both := append_opening_inj proper.1 proper'.1 same
          have inner := append_closing_inj proper.2.1 proper'.2.1 both.2
          rw [both.1, inner.1, ih proper.2.2 proper'.2.2 inner.2]

/-- Every text has a proper cut. -/
theorem exists_written (text : List Char) : ∃ cut : Cut, cut.IsProper ∧ cut.written = text := by
  induction length : text.length using Nat.strongRecOn generalizing text with
  | ind size ih =>
      cases exists_first_opening text with
      | inl plain => exact ⟨stretch text, plain, rfl⟩
      | inr opens =>
          obtain ⟨before, rest, same, plain⟩ := opens
          cases split : Text.splitFirst? '\x7d' rest with
          | none =>
              exact ⟨unclosed before rest, ⟨plain, Text.splitFirst?_eq_none_iff.1 split⟩, same.symm⟩
          | some sides =>
              obtain ⟨name, later⟩ := sides
              obtain ⟨closes, short⟩ := Text.eq_of_splitFirst? split
              have shorter : later.length < size := by
                rw [← length, same, closes]
                simp only [List.length_append, List.length_cons]
                omega
              obtain ⟨behind, proper, written⟩ := ih later.length shorter later rfl
              refine ⟨reference before name behind, ⟨plain, short, proper⟩, ?_⟩
              rw [Cut.written, written, same, closes]

theorem exists_unique (text : List Char) :
    ∃ cut : Cut, ∀ other : Cut, other.IsProper ∧ other.written = text ↔ other = cut := by
  obtain ⟨cut, proper, written⟩ := exists_written text
  refine ⟨cut, fun other => ⟨?_, ?_⟩⟩
  · intro is
    exact written_inj is.1 proper (is.2.trans written.symm)
  · intro same
    rw [same]
    exact ⟨proper, written⟩

end Cut

/-! ## What is put into it -/

variable {environment : Environment} {quoted : String}

theorem Except.mapError_map {ε ε' α β : Type} (result : Except ε α) (image : α → β) (other : ε → ε') :
    (result.map image).mapError other = (result.mapError other).map image := by
  cases result <;> rfl

/-- A stretch is kept, if a reference opens behind it or nothing is there. -/
theorem expandFrom_stretch (plain : ¬ opening <:+: before) (rest : List Char)
    (ends : rest = [] ∨ opening <+: rest) :
    expandFrom environment quoted none (before ++ rest) =
      (expandFrom environment quoted none rest).map (before ++ ·) := by
  induction before with
  | nil =>
      rw [List.nil_append]
      cases expandFrom environment quoted none rest <;> rfl
  | cons char before ih =>
      have later : ¬ opening <:+: before := fun inside => plain (List.infix_cons inside)
      have noOpening : ∀ other, char = '$' → before ++ rest = '\x7b' :: other → False := by
        intro other dollar brace
        cases before with
        | nil =>
            cases ends with
            | inl none =>
                rw [none] at brace
                cases brace
            | inr opens =>
                obtain ⟨behind, same⟩ := opens
                rw [← same] at brace
                simp [opening] at brace
        | cons next before =>
            have next : next = '\x7b' := (List.cons.inj brace).1
            apply plain
            rw [dollar, next]
            exact (List.prefix_append opening before).isInfix
      rw [List.cons_append, expandFrom.eq_3 environment quoted char _ noOpening, ih later]
      cases expandFrom environment quoted none rest <;> rfl

theorem expandFrom_opening (rest : List Char) :
    expandFrom environment quoted none (opening ++ rest) =
      expandFrom environment quoted (some []) rest := rfl

/-- The name of a reference goes up to the next closing brace. -/
theorem expandFrom_name (short : '\x7d' ∉ name) (taken : List Char) :
    expandFrom environment quoted (some taken) (name ++ '\x7d' :: rest) =
      expandFrom environment quoted (some (name.reverse ++ taken)) ('\x7d' :: rest) := by
  induction name generalizing taken with
  | nil => rfl
  | cons char name ih =>
      have other : char ≠ '\x7d' := fun same => short (same ▸ List.mem_cons_self)
      rw [List.cons_append, expandFrom, if_neg other,
        ih (fun member => short (List.mem_cons_of_mem _ member)), List.reverse_cons, List.append_assoc]
      rfl

theorem expandFrom_unclosed (noEnd : '\x7d' ∉ rest) (taken : List Char) :
    expandFrom environment quoted (some taken) rest = .error (.unclosed quoted) := by
  induction rest generalizing taken with
  | nil => rfl
  | cons char rest ih =>
      have other : char ≠ '\x7d' := fun same => noEnd (same ▸ List.mem_cons_self)
      rw [expandFrom, if_neg other, ih fun member => noEnd (List.mem_cons_of_mem _ member)]

theorem expandFrom_reference (short : '\x7d' ∉ name) :
    expandFrom environment quoted (some []) (name ++ '\x7d' :: rest) =
      match environment (String.ofList name) with
      | none => .error (.unset (String.ofList name))
      | some value => (expandFrom environment quoted none rest).map (value.toList ++ ·) := by
  rw [expandFrom_name short, List.append_nil]
  cases found : environment (String.ofList name) with
  | none => simp only [expandFrom, if_true, List.reverse_reverse, found]
  | some value => simp only [expandFrom, if_true, List.reverse_reverse, found]

/-- Expansion fills a cut, or fails with the first complaint about it. -/
theorem Cut.expandFrom_written {cut : Cut} (proper : cut.IsProper) :
    (expandFrom environment quoted none cut.written).mapError ExpansionFault.message =
      match cut.complaints environment quoted with
      | [] => .ok (cut.filled environment)
      | message :: _ => .error message := by
  induction cut with
  | stretch text =>
      rw [written, ← List.append_nil text, expandFrom_stretch proper [] (.inl rfl)]
      rfl
  | unclosed before rest =>
      rw [written, List.append_assoc, expandFrom_stretch proper.1 _ (.inr (List.prefix_append _ _)),
        expandFrom_opening, expandFrom_unclosed proper.2]
      rfl
  | reference before name behind ih =>
      rw [written, List.append_assoc, expandFrom_stretch proper.1 _ (.inr (List.prefix_append _ _)),
        expandFrom_opening, expandFrom_reference proper.2.1, Except.mapError_map, complaints, filled]
      cases environment (String.ofList name) with
      | none => rfl
      | some value =>
          simp only [Except.mapError_map, ih proper.2.2]
          cases behind.complaints environment quoted with
          | nil =>
              show Except.ok (before ++ (value.toList ++ behind.filled environment)) = _
              rw [← List.append_assoc]
              rfl
          | cons message others => rfl

/-- Expansion is one pass from left to right. -/
theorem expand_cut (environment : Environment) (text : String) :
    ∃ cut : Cut, (∀ other : Cut, other.IsProper ∧ other.written = text.toList ↔ other = cut) ∧
      (expand environment text).mapError ExpansionFault.message =
        match cut.complaints environment text with
        | [] => .ok (String.ofList (cut.filled environment))
        | message :: _ => .error message := by
  obtain ⟨cut, only⟩ := Cut.exists_unique text.toList
  refine ⟨cut, only, ?_⟩
  have proper := (only cut).2 rfl
  rw [expand, Except.mapError_map, ← proper.2, Cut.expandFrom_written proper.1]
  cases cut.complaints environment text <;> rfl

end Cutting

end Medley
