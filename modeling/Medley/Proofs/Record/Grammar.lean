import Mathlib.Data.List.TakeWhile
import Medley.Proofs.Record.RoundTrip

/-!
# The grammar of records

What a record is, said without a reader: every form relates a text to the value that stands at its
start and to the rest of the text behind it.  The readers take exactly what the forms derive.  Where a
repetition takes as many items as it can, what follows it starts with a character that starts no
item, so a derivation has to stop there too; the tree follows by induction on the nesting.  All a
reader leaves or complains about is an end of the text it saw, which places every failure inside the
text (`Record.read_by_grammar`).
-/

namespace Medley.Record

variable {α β : Type}

section Forms

/-- A gap, possibly empty, stands before a rest of a text. -/
def Gap (text rest : List Char) : Prop :=
  ∃ gap : List Char, (∀ char ∈ gap, isGap char = true) ∧ text = gap ++ rest

/-- A character stands behind a gap. -/
def Sign (char : Char) (text rest : List Char) : Prop := Gap text (char :: rest)

/-- A word of accepted characters that the text behind it does not continue. -/
structure Run (accepts : Char → Bool) (text word rest : List Char) : Prop where
  split : text = word ++ rest
  accepted : ∀ char ∈ word, accepts char = true
  maximal : ∀ char ∈ rest.head?, accepts char = false

/-- What stands behind an opening quote, up to and with the closing one.  A backslash stands for the
character after it. -/
inductive Inside : List Char → List Char → List Char → Prop
  | close (rest : List Char) : Inside ('"' :: rest) [] rest
  | plain {char : Char} {text chars rest : List Char} (quote : char ≠ '"') (backslash : char ≠ '\\')
      (inside : Inside text chars rest) : Inside (char :: text) (char :: chars) rest
  | escaped {char : Char} {text chars rest : List Char} (inside : Inside text chars rest) :
      Inside ('\\' :: char :: text) (char :: chars) rest

/-- A text in double quotes. -/
def IsQuoted (text : List Char) (value : String) (rest : List Char) : Prop :=
  ∃ inside, Sign '"' text inside ∧ Inside inside value.toList rest

/-- A quoted key, a colon and a quoted value. -/
def IsEntry (text : List Char) (pair : String × String) (rest : List Char) : Prop :=
  ∃ behindKey beforeValue, IsQuoted text pair.1 behindKey ∧ Sign ':' behindKey beforeValue ∧
    IsQuoted beforeValue pair.2 rest

/-- A maximal run of letters that names a kind. -/
def IsKind (text : List Char) (kind : Kind) (rest : List Char) : Prop :=
  ∃ start, Gap text start ∧ Run Char.isAlpha start kind.name.toList rest

/-- A maximal run of digits, at least one, with the value that they denote. -/
def IsDigits (text : List Char) (value : Nat) (rest : List Char) : Prop :=
  ∃ digits, digits ≠ [] ∧ Run Char.isDigit text digits rest ∧ Nat.ofDigitChars 10 digits 0 = value

/-- Digits, or a minus sign and digits right behind it, whose value is a media id. -/
inductive IsId : List Char → Int64 → List Char → Prop
  | plain {text start rest : List Char} {value : Nat} {id : Int64} (gap : Gap text start)
      (digits : IsDigits start value rest) (equal : id.toInt = value) : IsId text id rest
  | negative {text start rest : List Char} {value : Nat} {id : Int64} (minus : Sign '-' text start)
      (digits : IsDigits start value rest) (equal : id.toInt = -(value : Int)) : IsId text id rest

/-- Items one after the other. -/
inductive Series (item : List Char → α → List Char → Prop) : List Char → List α → List Char → Prop
  | nil (text : List Char) : Series item text [] text
  | cons {text next rest : List Char} {value : α} {values : List α} (first : item text value next)
      (others : Series item next values rest) : Series item text (value :: values) rest

/-- Items in square brackets. -/
def Bracketed (item : List Char → α → List Char → Prop) (text : List Char) (values : List α)
    (rest : List Char) : Prop :=
  ∃ inside close, Sign '[' text inside ∧ Series item inside values close ∧ Sign ']' close rest

/-- A record in parentheses: its kind, its attributes and ids in brackets, and the records of its
operands.  Of two attributes with one key the later one counts. -/
inductive IsRecord : List Char → Shape → List Char → Prop
  | node {text behindOpen behindKind behindPairs behindIds behindOperands rest : List Char}
      {operator : Operator} {pairs : List (String × String)} {operands : List Shape}
      (opens : Sign '(' text behindOpen) (names : IsKind behindOpen operator.kind behindKind)
      (stores : Bracketed IsEntry behindKind pairs behindPairs)
      (lists : Bracketed IsId behindPairs operator.ids behindIds)
      (owns : Series IsRecord behindIds operands behindOperands)
      (closes : Sign ')' behindOperands rest)
      (attributes : ∀ key, operator.attributes.get? key = pairs.reverse.lookup key) :
      IsRecord text (.node () operator operands) rest

/-- A text that is one record with gaps around it. -/
def IsRecordText (text : List Char) (tree : Shape) : Prop :=
  ∃ rest, IsRecord text tree rest ∧ Gap rest []

end Forms

section Words

theorem run_iff {accepts : Char → Bool} {text word rest : List Char} :
    Run accepts text word rest ↔ text.takeWhile accepts = word ∧ text.dropWhile accepts = rest := by
  constructor
  · rintro ⟨rfl, accepted, maximal⟩
    exact span_word accepted maximal
  · rintro ⟨rfl, rfl⟩
    refine ⟨List.takeWhile_append_dropWhile.symm, fun char => List.mem_takeWhile_imp, ?_⟩
    intro char first
    have stops := List.head?_dropWhile_not accepts text
    rwa [Option.mem_def.1 first] at stops

theorem gap_skipGap (text : List Char) : Gap text (skipGap text) := by
  obtain ⟨split, accepted, -⟩ := run_iff.2 ⟨rfl, rfl⟩
  exact ⟨_, accepted, split⟩

/-- A gap reaches as far as it can if what stands behind it does not continue it. -/
theorem skipGap_of_gap {text rest : List Char} (gap : Gap text rest)
    (solid : ∀ char ∈ rest.head?, isGap char = false) : skipGap text = rest := by
  obtain ⟨gap, accepted, split⟩ := gap
  exact (run_iff.1 ⟨split, accepted, solid⟩).2

theorem sign_iff {char : Char} (solid : isGap char = false) {text rest : List Char} :
    Sign char text rest ↔ skipGap text = char :: rest := by
  constructor
  · intro sign
    refine skipGap_of_gap sign ?_
    rintro _ ⟨⟩
    exact solid
  · intro skipped
    have gap := gap_skipGap text
    rwa [skipped] at gap

theorem isDigits_iff {text rest : List Char} {value : Nat} :
    IsDigits text value rest ↔
      Text.readDigits? (text.takeWhile Char.isDigit) = some value ∧
        text.dropWhile Char.isDigit = rest := by
  constructor
  · rintro ⟨digits, present, run, rfl⟩
    obtain ⟨rfl, rfl⟩ := run_iff.1 run
    have all : (text.takeWhile Char.isDigit).all Char.isDigit = true :=
      List.all_eq_true.2 run.accepted
    simp [Text.readDigits?, present, all]
  · rintro ⟨reads, rfl⟩
    refine ⟨_, ?_, run_iff.2 ⟨rfl, rfl⟩, ?_⟩
    · intro empty
      rw [empty] at reads
      cases reads
    · unfold Text.readDigits? at reads
      split at reads
      · exact Option.some.inj reads
      · cases reads

end Words

section Steps

theorem bind_eq_ok {first : Reader α} {next : α → Reader β} {text rest : List Char} {value : β} :
    (first >>= next) text = .ok (value, rest) ↔
      ∃ middle left, first text = .ok (middle, left) ∧ next middle left = .ok (value, rest) := by
  simp only [bind, StateT.bind]
  rcases first text with failure | ⟨middle, left⟩
  · simp [Except.bind]
  · simp [Except.bind]

theorem pure_eq_ok {made value : α} {text rest : List Char} :
    (pure made : Reader α) text = .ok (value, rest) ↔ value = made ∧ rest = text := by
  change Except.ok (made, text) = Except.ok (value, rest) ↔ _
  rw [Except.ok.injEq, Prod.mk.injEq]
  exact and_congr eq_comm eq_comm

theorem expect_eq_ok {char : Char} (solid : isGap char = false) {text rest : List Char}
    {value : Unit} : expect char text = .ok (value, rest) ↔ Sign char text rest := by
  rw [sign_iff solid, expect]
  cases skipGap text with
  | nil => simp
  | cons first left =>
      by_cases same : first = char
      · simp [same]
      · simp [same]

theorem closeQuote_eq_some {text chars rest : List Char} :
    closeQuote text = some (chars, rest) ↔ Inside text chars rest := by
  constructor
  · intro closes
    induction text using closeQuote.induct generalizing chars with
    | case1 => cases closes
    | case2 left =>
        cases closes
        exact .close _
    | case3 char left ih =>
        rw [closeQuote, Option.map_eq_some_iff] at closes
        obtain ⟨⟨inner, behind⟩, closes, equal⟩ := closes
        cases equal
        exact .escaped (ih closes)
    | case4 rest _ alone =>
        cases rest with
        | nil => cases closes
        | cons char rest => exact absurd rfl (alone char rest rfl)
    | case5 char left quote _ backslash ih =>
        rw [closeQuote.eq_4 _ _ quote fun _ _ same _ => backslash same, if_neg backslash,
          Option.map_eq_some_iff] at closes
        obtain ⟨⟨inner, behind⟩, closes, equal⟩ := closes
        cases equal
        exact .plain quote backslash (ih closes)
  · intro inside
    induction inside with
    | close rest => rfl
    | plain quote backslash inside ih => simp [closeQuote, backslash, ih]
    | escaped inside ih => simp [closeQuote, ih]

theorem quotedText_eq_ok {text rest : List Char} {value : String} :
    quotedText text = .ok (value, rest) ↔ IsQuoted text value rest := by
  rw [quotedText, bind_eq_ok, IsQuoted]
  constructor
  · rintro ⟨_, inside, opens, closes⟩
    refine ⟨inside, (expect_eq_ok rfl).1 opens, ?_⟩
    split at closes
    · next chars behind closed =>
      cases closes
      rw [String.toList_ofList]
      exact closeQuote_eq_some.1 closed
    · cases closes
  · rintro ⟨inside, opens, closes⟩
    refine ⟨(), inside, (expect_eq_ok rfl).2 opens, ?_⟩
    simp only [closeQuote_eq_some.2 closes, String.ofList_toList]

theorem entry_eq_ok {text rest : List Char} {pair : String × String} :
    entry text = .ok (pair, rest) ↔ IsEntry text pair rest := by
  simp only [entry, bind_eq_ok, pure_eq_ok, quotedText_eq_ok, @expect_eq_ok ':' rfl]
  constructor
  · rintro ⟨key, behindKey, first, _, beforeValue, colon, value, _, second, rfl, rfl⟩
    exact ⟨behindKey, beforeValue, first, colon, second⟩
  · rintro ⟨behindKey, beforeValue, first, colon, second⟩
    exact ⟨pair.1, behindKey, first, (), beforeValue, colon, pair.2, rest, second, rfl, rfl⟩

theorem kindWord_eq_ok {text rest : List Char} {kind : Kind} :
    kindWord text = .ok (kind, rest) ↔ IsKind text kind rest := by
  constructor
  · intro reads
    rw [kindWord] at reads
    split at reads
    · next named =>
      cases reads
      have same := List.find?_some named
      have word : kind.name = String.ofList ((skipGap text).takeWhile Char.isAlpha) :=
        beq_iff_eq.1 same
      exact ⟨_, gap_skipGap text, run_iff.2 ⟨by rw [word, String.toList_ofList], rfl⟩⟩
    · cases reads
  · rintro ⟨start, gap, run⟩
    have stands : skipGap text = start := by
      refine skipGap_of_gap gap ?_
      obtain ⟨first, others, written⟩ := List.exists_cons_of_ne_nil (name_spelled kind).1
      rw [run.split, written]
      rintro _ ⟨⟩
      exact isGap_of_isAlpha (run.accepted first (written ▸ .head _))
    obtain ⟨word, left⟩ := run_iff.1 run
    simp only [kindWord, stands, word, left, String.ofList_toList, Kind.ofName?_name]

/-- What is read of a word of digits, with or without a minus sign. -/
theorem id_eq_ok {word left failure rest : List Char} {id : Int64} :
    (match Text.readInt64? (String.ofList word) with
      | some id => Except.ok (id, left)
      | none => .error failure) = .ok (id, rest) ↔
      Text.readInteger? word = some id.toInt ∧ left = rest := by
  rw [← String.toList_ofList (l := word), ← Text.readInt64?_eq_some, String.toList_ofList]
  cases Text.readInt64? (String.ofList word) with
  | none => simp
  | some other => simp

theorem mediaId_minus {text start rest : List Char} {id : Int64}
    (minus : skipGap text = '-' :: start) :
    mediaId text = .ok (id, rest) ↔
      ∃ value : Nat, IsDigits start value rest ∧ id.toInt = -(value : Int) := by
  simp only [mediaId, minus]
  refine id_eq_ok.trans ?_
  simp only [isDigits_iff, List.singleton_append, Text.readInteger?, Option.map_eq_some_iff,
    Option.bind_eq_bind, Option.bind_eq_some_iff, Option.pure_def, Option.some.injEq]
  grind

theorem mediaId_unsigned {text rest : List Char} {id : Int64}
    (unsigned : ∀ start, skipGap text ≠ '-' :: start) :
    mediaId text = .ok (id, rest) ↔
      ∃ value : Nat, IsDigits (skipGap text) value rest ∧ id.toInt = value := by
  rw [mediaId]
  generalize skipGap text = start at unsigned ⊢
  split
  next sign digits splits =>
  split at splits
  · next left => exact absurd rfl (unsigned left)
  · cases splits
    refine id_eq_ok.trans ?_
    rw [List.nil_append, Text.readInteger?_of_all_isDigit fun _ => List.mem_takeWhile_imp]
    simp only [isDigits_iff, Option.map_eq_some_iff, Option.bind_eq_bind,
      Option.bind_eq_some_iff, Option.pure_def, Option.some.injEq]
    grind

/-- A number starts with a digit. -/
theorem IsDigits.starts {text rest : List Char} {value : Nat} (digits : IsDigits text value rest) :
    ∃ char left, text = char :: left ∧ char.isDigit = true := by
  obtain ⟨word, present, run, -⟩ := digits
  obtain ⟨first, others, rfl⟩ := List.exists_cons_of_ne_nil present
  exact ⟨first, _, run.split, run.accepted first (.head _)⟩

theorem IsDigits.skipGap_of_gap {text start rest : List Char} {value : Nat}
    (digits : IsDigits start value rest) (gap : Gap text start) : skipGap text = start := by
  obtain ⟨char, left, rfl, digit⟩ := digits.starts
  exact (sign_iff (isGap_of_isDigit digit)).1 gap

theorem mediaId_eq_ok {text rest : List Char} {id : Int64} :
    mediaId text = .ok (id, rest) ↔ IsId text id rest := by
  constructor
  · intro reads
    by_cases minus : ∃ start, skipGap text = '-' :: start
    · obtain ⟨start, minus⟩ := minus
      obtain ⟨value, digits, equal⟩ := (mediaId_minus minus).1 reads
      exact .negative ((sign_iff rfl).2 minus) digits equal
    · obtain ⟨value, digits, equal⟩ := (mediaId_unsigned (not_exists.1 minus)).1 reads
      exact .plain (gap_skipGap text) digits equal
  · intro derived
    cases derived with
    | plain gap digits equal =>
        have stands := digits.skipGap_of_gap gap
        refine (mediaId_unsigned fun left signed => ?_).2 ⟨_, stands ▸ digits, equal⟩
        obtain ⟨char, other, starts, digit⟩ := digits.starts
        rw [← stands, signed] at starts
        cases starts
        cases digit
    | negative minus digits equal => exact (mediaId_minus ((sign_iff rfl).1 minus)).2 ⟨_, digits, equal⟩

end Steps

section Ends

/-- All that a reader leaves, and all that it complains about, is an end of the text it saw. -/
structure Within (reader : Reader α) : Prop where
  leaves : ∀ {text rest : List Char} {value : α}, reader text = .ok (value, rest) → rest <:+ text
  blames : ∀ {text rest : List Char}, reader text = .error rest → rest <:+ text

/-- A reader that takes at least one character. -/
def Shrinks (reader : Reader α) : Prop :=
  ∀ {text rest : List Char} {value : α}, reader text = .ok (value, rest) → rest.length < text.length

theorem skipGap_suffix (text : List Char) : skipGap text <:+ text := List.dropWhile_suffix _

theorem Gap.suffix {text rest : List Char} (gap : Gap text rest) : rest <:+ text := by
  obtain ⟨gap, -, split⟩ := gap
  exact ⟨gap, split.symm⟩

theorem Sign.length_lt {char : Char} {text rest : List Char} (sign : Sign char text rest) :
    rest.length < text.length := Gap.suffix sign |>.length_le

theorem Sign.suffix {char : Char} {text rest : List Char} (sign : Sign char text rest) :
    rest <:+ text := (List.suffix_cons _ _).trans (Gap.suffix sign)

theorem Run.suffix {accepts : Char → Bool} {text word rest : List Char}
    (run : Run accepts text word rest) : rest <:+ text := ⟨word, run.split.symm⟩

theorem Inside.suffix {text chars rest : List Char} (inside : Inside text chars rest) :
    rest <:+ text := by
  induction inside with
  | close rest => exact List.suffix_cons _ _
  | plain quote backslash inside ih => exact ih.trans (List.suffix_cons _ _)
  | escaped inside ih => exact ih.trans ((List.suffix_cons _ _).trans (List.suffix_cons _ _))

theorem within_bind {first : Reader α} {next : α → Reader β} (within : Within first)
    (others : ∀ value, Within (next value)) : Within (first >>= next) where
  leaves reads := by
    obtain ⟨middle, left, taken, reads⟩ := bind_eq_ok.1 reads
    exact ((others middle).leaves reads).trans (within.leaves taken)
  blames {text rest} refuses := by
    simp only [bind, StateT.bind] at refuses
    rcases step : first text with failure | ⟨middle, left⟩
    · rw [step] at refuses
      cases refuses
      exact within.blames step
    · rw [step] at refuses
      exact ((others middle).blames refuses).trans (within.leaves step)

theorem within_pure (value : α) : Within (pure value : Reader α) where
  leaves reads := by
    obtain ⟨-, rfl⟩ := pure_eq_ok.1 reads
    exact List.suffix_rfl
  blames refuses := nomatch refuses

theorem within_expect {char : Char} (solid : isGap char = false) : Within (expect char) where
  leaves reads := (List.suffix_cons _ _).trans (Gap.suffix ((expect_eq_ok solid).1 reads))
  blames {text rest} refuses := by
    rw [expect] at refuses
    split at refuses
    · cases refuses
      exact List.nil_suffix
    · next first left skipped =>
      split at refuses
      · cases refuses
      · cases refuses
        exact skipped ▸ skipGap_suffix text

theorem within_quotedText : Within quotedText := by
  refine within_bind (within_expect rfl) fun _ => ⟨?_, ?_⟩
  · intro text rest value reads
    split at reads
    · next chars behind closed =>
      cases reads
      exact (closeQuote_eq_some.1 closed).suffix
    · cases reads
  · intro text rest refuses
    split at refuses
    · cases refuses
    · cases refuses
      exact List.suffix_rfl

theorem within_entry : Within entry :=
  within_bind within_quotedText fun _ => within_bind (within_expect rfl) fun _ =>
    within_bind within_quotedText fun _ => within_pure _

theorem within_kindWord : Within kindWord where
  leaves reads := by
    obtain ⟨start, gap, run⟩ := kindWord_eq_ok.1 reads
    exact run.suffix.trans gap.suffix
  blames {text rest} refuses := by
    rw [kindWord] at refuses
    split at refuses
    · cases refuses
    · cases refuses
      exact skipGap_suffix text

theorem within_mediaId : Within mediaId where
  leaves reads := by
    cases mediaId_eq_ok.1 reads with
    | plain gap digits =>
        obtain ⟨word, -, run, -⟩ := digits
        exact run.suffix.trans gap.suffix
    | negative minus digits =>
        obtain ⟨word, -, run, -⟩ := digits
        exact run.suffix.trans ((List.suffix_cons _ _).trans (Gap.suffix minus))
  blames {text rest} refuses := by
    simp only [mediaId] at refuses
    split at refuses
    · cases refuses
    · cases refuses
      exact skipGap_suffix text

theorem many_suffix {item : Reader α} (within : Within item) (budget : Nat) (text : List Char) :
    (many item budget text).2 <:+ text := by
  induction budget generalizing text with
  | zero => exact List.suffix_rfl
  | succ budget ih =>
      rw [many]
      split
      · exact List.suffix_rfl
      · next value left reads => exact (ih left).trans (within.leaves reads)

theorem within_repeated {item : Reader α} (within : Within item) : Within (repeated item) where
  leaves {text rest value} reads := by
    have taken : many item text.length text = (value, rest) := Except.ok.inj reads
    have suffix := many_suffix within text.length text
    rwa [taken] at suffix
  blames refuses := nomatch refuses

/-- A record starts with a parenthesis, and nothing behind it is read from elsewhere. -/
theorem shapeWithin_succ (depth : Nat) (within : Within (shapeWithin depth)) :
    ∃ parts : Unit → Reader Shape, shapeWithin (depth + 1) = expect '(' >>= parts ∧
      ∀ opened, Within (parts opened) :=
  ⟨_, rfl, fun _ => within_bind within_kindWord fun _ =>
    within_bind (within_expect rfl) fun _ => within_bind (within_repeated within_entry) fun _ =>
    within_bind (within_expect rfl) fun _ => within_bind (within_expect rfl) fun _ =>
    within_bind (within_repeated within_mediaId) fun _ => within_bind (within_expect rfl) fun _ =>
    within_bind (within_repeated within) fun _ => within_bind (within_expect rfl) fun _ =>
    within_pure _⟩

theorem within_shapeWithin (depth : Nat) : Within (shapeWithin depth) := by
  induction depth with
  | zero =>
      refine ⟨(nomatch ·), fun {text rest} refuses => ?_⟩
      cases refuses
      exact skipGap_suffix text
  | succ depth ih =>
      obtain ⟨parts, split, within⟩ := shapeWithin_succ depth ih
      rw [split]
      exact within_bind (within_expect rfl) within

theorem shrinks_shapeWithin (depth : Nat) : Shrinks (shapeWithin depth) := by
  intro text rest tree reads
  cases depth with
  | zero => cases reads
  | succ depth =>
      obtain ⟨parts, split, within⟩ := shapeWithin_succ depth (within_shapeWithin depth)
      rw [split, bind_eq_ok] at reads
      obtain ⟨_, left, opens, reads⟩ := reads
      exact Nat.lt_of_le_of_lt ((within _).leaves reads).length_le
        ((expect_eq_ok rfl).1 opens).length_lt

theorem isEntry_suffix {text rest : List Char} {pair : String × String}
    (derived : IsEntry text pair rest) : rest <:+ text :=
  within_entry.leaves (entry_eq_ok.2 derived)

theorem isId_suffix {text rest : List Char} {id : Int64} (derived : IsId text id rest) :
    rest <:+ text :=
  within_mediaId.leaves (mediaId_eq_ok.2 derived)

theorem IsKind.suffix {text rest : List Char} {kind : Kind} (derived : IsKind text kind rest) :
    rest <:+ text :=
  within_kindWord.leaves (kindWord_eq_ok.2 derived)

theorem IsDigits.length_lt {text rest : List Char} {value : Nat} (digits : IsDigits text value rest) :
    rest.length < text.length := by
  obtain ⟨word, present, ⟨rfl, -, -⟩, -⟩ := digits
  have some := List.length_pos_iff.2 present
  rw [List.length_append]
  omega

theorem shrinks_mediaId : Shrinks mediaId := by
  intro text rest id reads
  cases mediaId_eq_ok.1 reads with
  | plain gap digits => exact Nat.lt_of_lt_of_le digits.length_lt gap.suffix.length_le
  | negative minus digits => exact Nat.lt_trans digits.length_lt minus.length_lt

theorem IsQuoted.length_lt {text rest : List Char} {value : String}
    (quoted : IsQuoted text value rest) : rest.length < text.length := by
  obtain ⟨inside, opens, closes⟩ := quoted
  exact Nat.lt_of_le_of_lt closes.suffix.length_le opens.length_lt

theorem shrinks_entry : Shrinks entry := by
  intro text rest pair reads
  obtain ⟨behindKey, beforeValue, key, colon, value⟩ := entry_eq_ok.1 reads
  exact (value.length_lt.trans colon.length_lt).trans key.length_lt

end Ends

section Repetitions

variable {item other : List Char → α → List Char → Prop} {reader : Reader α}

/-- A reader takes a value off the start of a text. -/
def Takes (reader : Reader α) (text : List Char) (value : α) (rest : List Char) : Prop :=
  reader text = .ok (value, rest)

theorem series_cons_iff {text rest : List Char} {value : α} {values : List α} :
    Series item text (value :: values) rest ↔
      ∃ next, item text value next ∧ Series item next values rest := by
  constructor
  · rintro ⟨⟩
    exact ⟨_, ‹_›, ‹_›⟩
  · rintro ⟨next, first, others⟩
    exact .cons first others

theorem Series.suffix (shorter : ∀ {next value left}, item next value left → left <:+ next)
    {text rest : List Char} {values : List α} (series : Series item text values rest) :
    rest <:+ text := by
  induction series with
  | nil => exact List.suffix_rfl
  | cons first others ih => exact ih.trans (shorter first)

/-- Two forms that agree on the ends of a text have the same series there. -/
theorem series_congr {text rest : List Char} {values : List α}
    (same : ∀ {next value left}, next <:+ text → (item next value left ↔ other next value left))
    (shorter : ∀ {next value left}, item next value left → left <:+ next) :
    Series item text values rest ↔ Series other text values rest := by
  induction values generalizing text with
  | nil =>
      constructor
      · rintro ⟨⟩
        exact .nil _
      · rintro ⟨⟩
        exact .nil _
  | cons value values ih =>
      rw [series_cons_iff, series_cons_iff]
      refine exists_congr fun next => ?_
      rw [same List.suffix_rfl]
      refine and_congr_right fun first => ih fun end' => same (end'.trans ?_)
      exact shorter ((same List.suffix_rfl).2 first)

theorem many_eq_of_series {text rest : List Char} {values : List α}
    (series : Series (Takes reader) text values rest)
    (stops : ∀ value left, ¬ Takes reader rest value left) {budget : Nat}
    (enough : values.length ≤ budget) : many reader budget text = (values, rest) := by
  induction series generalizing budget with
  | nil text =>
      cases budget with
      | zero => rfl
      | succ budget =>
          rw [many]
          split
          · rfl
          · next value left reads => exact absurd reads (stops value left)
  | cons first others ih =>
      obtain _ | budget := budget
      · cases enough
      rw [many, first]
      simp only [ih stops (Nat.le_of_succ_le_succ enough)]

theorem series_many (shrinks : Shrinks reader) {budget : Nat} {text : List Char}
    (enough : text.length ≤ budget) :
    Series (Takes reader) text (many reader budget text).1 (many reader budget text).2 ∧
      ∀ value left, ¬ Takes reader (many reader budget text).2 value left := by
  induction budget generalizing text with
  | zero =>
      refine ⟨.nil _, fun value left reads => ?_⟩
      have shorter := shrinks reads
      exact absurd enough (Nat.not_le.2 (Nat.zero_lt_of_lt shorter))
  | succ budget ih =>
      rw [many]
      split
      · next refuses =>
        refine ⟨.nil _, fun value left reads => ?_⟩
        cases refuses.symm.trans reads
      · next value left reads =>
        have shorter := shrinks reads
        have remains : left.length ≤ budget := by omega
        obtain ⟨others, stops⟩ := ih remains
        exact ⟨.cons reads others, stops⟩

theorem Series.length_le (shrinks : Shrinks reader) {text rest : List Char} {values : List α}
    (series : Series (Takes reader) text values rest) : values.length ≤ text.length := by
  induction series with
  | nil => exact Nat.zero_le _
  | cons first others ih => exact Nat.succ_le_of_lt (Nat.lt_of_le_of_lt ih (shrinks first))

/-- A repetition takes a series of items up to where no further item stands. -/
theorem repeated_eq_ok (shrinks : Shrinks reader) {text rest : List Char} {values : List α} :
    repeated reader text = .ok (values, rest) ↔
      Series (Takes reader) text values rest ∧ ∀ value left, ¬ Takes reader rest value left := by
  constructor
  · intro reads
    have taken : many reader text.length text = (values, rest) := Except.ok.inj reads
    have series := series_many shrinks (Nat.le_refl text.length)
    rwa [taken] at series
  · rintro ⟨series, stops⟩
    exact congrArg Except.ok (many_eq_of_series series stops (series.length_le shrinks))

/-- A repetition up to a sign that starts no item takes the series of items before it. -/
theorem repeated_until {close : Char} {text : List Char}
    (reads : ∀ {next value left}, next <:+ text →
      (Takes reader next value left ↔ item next value left))
    (within : Within reader) (shrinks : Shrinks reader)
    (stops : ∀ {next rest value left}, Sign close next rest → ¬ item next value left)
    {behind rest : List Char} {values : List α} :
    repeated reader text = .ok (values, behind) ∧ Sign close behind rest ↔
      Series item text values behind ∧ Sign close behind rest := by
  refine and_congr_left fun closes => ?_
  rw [repeated_eq_ok shrinks, series_congr reads within.leaves]
  refine and_iff_left_of_imp fun series value left taken => ?_
  have inside : behind <:+ text := ((series_congr reads within.leaves).2 series).suffix within.leaves
  exact stops closes ((reads inside).1 taken)

/-- Items in brackets. -/
theorem bracketed_iff (reads : ∀ {next value left}, Takes reader next value left ↔ item next value left)
    (within : Within reader) (shrinks : Shrinks reader)
    (stops : ∀ {next rest value left}, Sign ']' next rest → ¬ item next value left)
    {text rest : List Char} {values : List α} :
    Bracketed item text values rest ↔ ∃ inside close, Sign '[' text inside ∧
      repeated reader inside = .ok (values, close) ∧ Sign ']' close rest := by
  refine exists_congr fun inside => exists_congr fun close => and_congr_right fun _ => ?_
  exact (repeated_until (fun _ => reads) within shrinks stops).symm

theorem Bracketed.suffix (shorter : ∀ {next value left}, item next value left → left <:+ next)
    {text rest : List Char} {values : List α} (bracketed : Bracketed item text values rest) :
    rest <:+ text := by
  obtain ⟨inside, close, opens, series, closes⟩ := bracketed
  have inner : close <:+ inside := series.suffix shorter
  exact ((closes.suffix.trans inner).trans opens.suffix)

end Repetitions

section Records

theorem Sign.unique {char sign : Char} (solid : isGap char = false) (solidOther : isGap sign = false)
    {text rest left : List Char} (here : Sign char text rest) (there : Sign sign text left) :
    char = sign := by
  have same := ((sign_iff solid).1 here).symm.trans ((sign_iff solidOther).1 there)
  exact (List.cons.inj same).1

theorem not_isEntry_of_close {text rest left : List Char} {pair : String × String}
    (close : Sign ']' text rest) : ¬ IsEntry text pair left := by
  rintro ⟨_, _, ⟨inside, opens, -⟩, -⟩
  cases Sign.unique rfl rfl close opens

theorem not_isId_of_close {text rest left : List Char} {id : Int64} (close : Sign ']' text rest) :
    ¬ IsId text id left := by
  intro derived
  cases derived with
  | plain gap digits =>
      obtain ⟨char, _, rfl, digit⟩ := digits.starts
      cases Sign.unique rfl (isGap_of_isDigit digit) close gap
      cases digit
  | negative minus => cases Sign.unique rfl rfl close minus

theorem not_isRecord_of_close {text rest left : List Char} {tree : Shape} (close : Sign ')' text rest) :
    ¬ IsRecord text tree left := by
  rintro ⟨opens⟩
  cases Sign.unique rfl rfl close opens

/-- The last value that a list of entries gives a key is the one that the map has. -/
theorem get?_ofList (pairs : List (String × String)) (key : String) :
    (SortedMap.ofList pairs).get? key = pairs.reverse.lookup key := by
  have folded : ∀ map : SortedMap String String,
      (pairs.foldl (fun map entry => map.insert entry.1 entry.2) map).get? key =
        (pairs.reverse.lookup key).or (map.get? key) := by
    induction pairs with
    | nil => intro map; rfl
    | cons pair pairs ih =>
        intro map
        obtain ⟨name, value⟩ := pair
        rw [List.foldl_cons, ih, List.reverse_cons, List.lookup_append, Option.or_assoc,
          SortedMap.get?_insert]
        congr 1
        by_cases same : key = name
        · simp [same]
        · simp [same, List.lookup_cons, beq_false_of_ne same]
  rw [SortedMap.ofList, folded, SortedMap.get?_empty, Option.or_none]

/-- A record is read as the grammar derives it, if the limit on its depth admits the text. -/
theorem shapeWithin_eq_ok {depth : Nat} {text rest : List Char} {tree : Shape}
    (enough : text.length ≤ depth) :
    Takes (shapeWithin depth) text tree rest ↔ IsRecord text tree rest := by
  induction depth generalizing text rest tree with
  | zero =>
      constructor
      · rintro ⟨⟩
      · rintro ⟨opens⟩
        exact absurd enough (Nat.not_le.2 (Nat.zero_lt_of_lt opens.length_lt))
  | succ depth ih =>
      have below {behindOpen behindIds : List Char} (opens : Sign '(' text behindOpen)
          (inside : behindIds <:+ behindOpen) {next left : List Char} {operand : Shape}
          (later : next <:+ behindIds) :
          Takes (shapeWithin depth) next operand left ↔ IsRecord next operand left := by
        refine ih ?_
        have shorter := opens.length_lt
        have inner := (later.trans inside).length_le
        omega
      have pairsIff := @bracketed_iff _ IsEntry entry entry_eq_ok within_entry shrinks_entry
        not_isEntry_of_close
      have idsIff := @bracketed_iff _ IsId mediaId mediaId_eq_ok within_mediaId shrinks_mediaId
        not_isId_of_close
      simp only [Takes, shapeWithin, bind_eq_ok, pure_eq_ok, kindWord_eq_ok,
        @expect_eq_ok '(' rfl, @expect_eq_ok ')' rfl,
        @expect_eq_ok '[' rfl, @expect_eq_ok ']' rfl]
      constructor
      · rintro ⟨_, behindOpen, opens, kind, behindKind, names, _, inPairs, openPairs, pairs, _,
          readPairs, _, behindPairs, closePairs, _, inIds, openIds, ids, _, readIds, _, behindIds,
          closeIds, operands, behindOperands, owns, _, _, closes, rfl, rfl⟩
        have stores := pairsIff.2 ⟨inPairs, _, openPairs, readPairs, closePairs⟩
        have lists := idsIff.2 ⟨inIds, _, openIds, readIds, closeIds⟩
        have inside := ((lists.suffix isId_suffix).trans (stores.suffix isEntry_suffix)).trans
          names.suffix
        have series := (repeated_until (below opens inside) (within_shapeWithin depth)
          (shrinks_shapeWithin depth) not_isRecord_of_close).1 ⟨owns, closes⟩
        exact .node opens names stores lists series.1 closes (get?_ofList pairs)
      · rintro @⟨_, behindOpen, behindKind, behindPairs, behindIds, behindOperands, _, operator, pairs,
          operands, opens, names, stores, lists, owns, closes, attributes⟩
        have inside := ((lists.suffix isId_suffix).trans (stores.suffix isEntry_suffix)).trans
          names.suffix
        obtain ⟨inPairs, _, openPairs, readPairs, closePairs⟩ := pairsIff.1 stores
        obtain ⟨inIds, _, openIds, readIds, closeIds⟩ := idsIff.1 lists
        have taken := ((repeated_until (below opens inside) (within_shapeWithin depth)
          (shrinks_shapeWithin depth) not_isRecord_of_close).2 ⟨owns, closes⟩).1
        have made : operator.attributes = SortedMap.ofList pairs :=
          SortedMap.ext_get? fun key => (attributes key).trans (get?_ofList pairs key).symm
        refine ⟨(), _, opens, _, _, names, (), _, openPairs, _, _, readPairs, (), _, closePairs, (), _,
          openIds, _, _, readIds, (), _, closeIds, _, _, taken, (), _, closes, ?_, rfl⟩
        rw [← made]

/-- A record stands at the start of a text exactly if it is read there. -/
theorem shape_eq_ok {text rest : List Char} {tree : Shape} :
    shape text = .ok (tree, rest) ↔ IsRecord text tree rest :=
  shapeWithin_eq_ok (Nat.le_succ text.length)

theorem within_shape {text rest : List Char} (refuses : shape text = .error rest) : rest <:+ text :=
  (within_shapeWithin _).blames refuses

theorem skipGap_eq_nil_iff {text : List Char} : skipGap text = [] ↔ Gap text [] := by
  constructor
  · intro nothing
    have gap := gap_skipGap text
    rwa [nothing] at gap
  · intro gap
    exact skipGap_of_gap gap fun _ first => nomatch first

theorem read_eq_ok {what record : String} {tree : Shape} :
    read what record = .ok tree ↔ IsRecordText record.toList tree := by
  rw [read, IsRecordText]
  constructor
  · intro reads
    split at reads
    · cases reads
    · next found rest shaped =>
      split at reads
      · next ends =>
        cases reads
        exact ⟨rest, shape_eq_ok.1 shaped, skipGap_eq_nil_iff.1 ends⟩
      · cases reads
  · rintro ⟨rest, derived, ends⟩
    simp only [shape_eq_ok.2 derived, skipGap_eq_nil_iff.2 ends]

/-- Ids need no gap between them, and the later of two values of a key counts. -/
example :
    IsRecordText "\n( union[\"key\" :\"\" \"key\":\"a\\\"\"] [1-2](universe[][]))".toList
      (.node () { kind := .union, attributes := .ofList [("key", "a\"")], ids := [1, -2] }
        [.node () { kind := .universe } []]) :=
  (@read_eq_ok "record" _ _).1 (by decide +kernel)

/-- Whatever is refused is refused as a malformed record, at a place inside the text. -/
theorem read_eq_error {what record : String} {error : Error} (refuses : read what record = .error error) :
    ∃ fault passed rest, record.toList = passed ++ rest ∧
      error = { cause := .malformedRecord what fault, position := .behind passed } := by
  have inside {fault : RecordFault} {rest : List Char} (ends : rest <:+ record.toList)
      (refused : (.error
        { cause := .malformedRecord what fault, position := .ofRest record.toList rest } :
          Except Error Shape) = .error error) :
      ∃ fault passed rest, record.toList = passed ++ rest ∧
        error = { cause := .malformedRecord what fault, position := .behind passed } := by
    obtain ⟨passed, split⟩ := ends
    rw [← split, Position.ofRest_append] at refused
    exact ⟨fault, passed, rest, split.symm, (Except.error.inj refused).symm⟩
  rw [read] at refuses
  split at refuses
  · next rest shaped => exact inside (within_shape shaped) refuses
  · next found rest shaped =>
    split at refuses
    · cases refuses
    · exact inside ((skipGap_suffix rest).trans ((within_shapeWithin _).leaves shaped)) refuses

/-- A text is read exactly if the grammar of records derives it, as the tree that it derives, and
every other text is refused as a malformed record at a place inside it. -/
theorem read_by_grammar (what record : String) :
    (∀ tree, read what record = .ok tree ↔ IsRecordText record.toList tree) ∧
      ((∃ tree, IsRecordText record.toList tree) ∨
        ∃ fault passed rest, record.toList = passed ++ rest ∧
          read what record =
            .error { cause := .malformedRecord what fault, position := .behind passed }) := by
  refine ⟨fun tree => read_eq_ok, ?_⟩
  cases result : read what record with
  | ok tree => exact .inl ⟨tree, read_eq_ok.1 result⟩
  | error error =>
      obtain ⟨fault, passed, rest, split, rfl⟩ := read_eq_error result
      exact .inr ⟨fault, passed, rest, split, rfl⟩

end Records

end Medley.Record
