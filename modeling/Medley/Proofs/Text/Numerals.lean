import Mathlib.Data.List.TakeWhile
import Medley.Media.Value
import Medley.Text.Lowercase

/-!
# Numbers in lower case

A text that holds a number consists of blanks, digits and signs.  None of these has another lower case
and none is in the lower case of another character, so a text and its lower case hold the same number
(`Text.readHeldInt64?_lowercase`).
-/

namespace Medley.Text

/-- The code points of the characters that a text which holds a number consists of: blanks, signs and
digits. -/
def numeralCodes : List Nat :=
  blankCodes ++ [0x2B, 0x2D, 0x30, 0x31, 0x32, 0x33, 0x34, 0x35, 0x36, 0x37, 0x38, 0x39]

/-- Whether a character can stand in a text that holds a number. -/
def isNumeral (char : Char) : Bool := numeralCodes.contains char.toNat

/-! ## What a text that holds a number consists of -/

theorem isNumeral_of_isBlank {char : Char} (blank : isBlank char = true) : isNumeral char = true := by
  simp only [isBlank, List.contains_iff_mem] at blank
  simp only [isNumeral, numeralCodes, List.contains_iff_mem, List.mem_append]
  exact .inl blank

theorem isNumeral_of_isDigit {char : Char} (digit : char.isDigit = true) : isNumeral char = true := by
  simp only [Char.isDigit, Bool.and_eq_true, decide_eq_true_eq] at digit
  have least : 48 ≤ char.toNat := digit.1
  have most : char.toNat ≤ 57 := digit.2
  simp only [isNumeral, numeralCodes, List.contains_iff_mem, List.mem_append, List.mem_cons,
    List.not_mem_nil, or_false]
  omega

theorem mem_dropWhile_or {α : Type} (unwanted : α → Bool) {elements : List α} {element : α}
    (member : element ∈ elements) : element ∈ elements.dropWhile unwanted ∨ unwanted element = true := by
  rw [← List.takeWhile_append_dropWhile (p := unwanted) (l := elements), List.mem_append] at member
  rcases member with dropped | kept
  · exact .inr (List.mem_takeWhile_imp dropped)
  · exact .inl kept

theorem mem_trim_or {text : String} {char : Char} (member : char ∈ text.toList) :
    char ∈ (trim text).toList ∨ isBlank char = true := by
  rw [trim, String.toList_ofList, trimWhere, List.mem_reverse]
  rcases mem_dropWhile_or isBlank member with inner | blank
  · exact mem_dropWhile_or isBlank (List.mem_reverse.2 inner)
  · exact .inr blank

theorem isNumeral_of_readDigits? {digits : List Char} {value : Nat}
    (reads : readDigits? digits = some value) : ∀ char ∈ digits, isNumeral char = true := by
  unfold readDigits? at reads
  split at reads
  · next digital =>
    have all := List.all_eq_true.1 (Bool.and_eq_true_iff.1 digital).2
    exact fun char member => isNumeral_of_isDigit (all char member)
  · cases reads

theorem isNumeral_of_readInteger? {text : List Char} {value : Int}
    (reads : readInteger? text = some value) : ∀ char ∈ text, isNumeral char = true := by
  unfold readInteger? at reads
  split at reads
  · next digits =>
    cases found : readDigits? digits with
    | none => simp [found] at reads
    | some count => exact List.forall_mem_cons.2 ⟨by decide, isNumeral_of_readDigits? found⟩
  · next digits =>
    cases found : readDigits? digits with
    | none => simp [found] at reads
    | some count => exact List.forall_mem_cons.2 ⟨by decide, isNumeral_of_readDigits? found⟩
  · cases found : readDigits? text with
    | none => simp [found] at reads
    | some count => exact isNumeral_of_readDigits? found

theorem isNumeral_of_readHeldInt64? {text : String} {value : Int64}
    (reads : readHeldInt64? text = some value) : ∀ char ∈ text.toList, isNumeral char = true := by
  intro char member
  rcases mem_trim_or member with inner | blank
  · exact isNumeral_of_readInteger? (readInt64?_eq_some.1 reads) char inner
  · exact isNumeral_of_isBlank blank

/-! ## Numbers that are written -/

theorem isBlank_of_isDigit {char : Char} (digit : char.isDigit = true) : isBlank char = false := by
  simp only [Char.isDigit, Bool.and_eq_true, decide_eq_true_eq] at digit
  have least : 48 ≤ char.toNat := digit.1
  have most : char.toNat ≤ 57 := digit.2
  simp only [isBlank, blankCodes, List.contains_eq_mem, decide_eq_false_iff_not, List.mem_cons,
    List.not_mem_nil, or_false]
  omega

theorem isBlank_of_mem_writeInteger {value : Int} {char : Char} (member : char ∈ writeInteger value) :
    isBlank char = false := by
  cases value with
  | ofNat value => exact isBlank_of_isDigit (isDigit_of_mem_writeDigits member)
  | negSucc value =>
      rcases List.mem_cons.1 member with rfl | digit
      · decide
      · exact isBlank_of_isDigit (isDigit_of_mem_writeDigits digit)

theorem trimWhere_of_forall {α : Type} {unwanted : α → Bool} {elements : List α}
    (wanted : ∀ element ∈ elements, unwanted element = false) : trimWhere unwanted elements = elements := by
  have keeps {elements : List α} (wanted : ∀ element ∈ elements, unwanted element = false) :
      elements.dropWhile unwanted = elements := by
    cases elements with
    | nil => rfl
    | cons first rest => exact List.dropWhile_cons_of_neg (by simp [wanted first (.head _)])
  rw [trimWhere, keeps wanted, keeps fun element member => wanted element (List.mem_reverse.1 member),
    List.reverse_reverse]

/-- A text that an integer is written as holds it. -/
@[simp] theorem readHeldInt64?_writeInt64 (value : Int64) :
    readHeldInt64? (writeInt64 value) = some value := by
  have trimmed : trim (writeInt64 value) = writeInt64 value := by
    rw [trim, writeInt64, String.toList_ofList,
      trimWhere_of_forall fun char member => isBlank_of_mem_writeInteger member]
  rw [readHeldInt64?, trimmed, readInt64?_writeInt64]

/-! ## The lower case of such characters -/

/-- What holds of every code point below the first beyond ASCII holds of every ASCII character. -/
theorem forall_ascii (property : Char → Prop) (each : ∀ code : Fin 0x80, property (Char.ofNat code))
    {char : Char} (ascii : char.toNat < 0x80) : property char := by
  have holds := each ⟨char.toNat, ascii⟩
  rwa [Char.ofNat_toNat] at holds

/-- No run of the table of lower case has a blank beyond ASCII, and no lower case in it is part of a
number. -/
theorem lowercaseRuns_apart :
    (∀ code ∈ numeralCodes, code < 0x80 ∨ ∀ run ∈ lowercaseRuns, ¬ (run.1 ≤ code ∧ code ≤ run.2.1)) ∧
      ∀ run ∈ lowercaseRuns, ∀ code ∈ numeralCodes,
        ¬ (run.2.2.2 ≤ code ∧ code ≤ run.2.2.2 + (run.2.1 - run.1)) := by
  decide +kernel

theorem lowercaseBeyond?_eq_some {char image : Char} (lowers : lowercaseBeyond? char = some image) :
    ∃ run ∈ lowercaseRuns, run.1 ≤ char.toNat ∧ char.toNat ≤ run.2.1 ∧
      image = Char.ofNat (run.2.2.2 + (char.toNat - run.1)) := by
  obtain ⟨run, found, rfl⟩ := Option.map_eq_some_iff.1 lowers
  have within := List.find?_some found
  simp only [Bool.and_eq_true, decide_eq_true_eq] at within
  exact ⟨run, List.mem_of_find?_eq_some found, within.1.1, within.1.2, rfl⟩

theorem lowercaseBeyond?_of_isNumeral {char : Char} (beyond : ¬ char.toNat < 0x80)
    (numeral : isNumeral char = true) : lowercaseBeyond? char = none := by
  rw [Option.eq_none_iff_forall_ne_some]
  intro image lowers
  obtain ⟨run, member, first, last, -⟩ := lowercaseBeyond?_eq_some lowers
  have apart := lowercaseRuns_apart.1 char.toNat (List.contains_iff_mem.1 numeral)
  exact apart.resolve_left beyond run member ⟨first, last⟩

theorem isNumeral_of_lowercaseBeyond? {char image : Char} (lowers : lowercaseBeyond? char = some image) :
    isNumeral image = false := by
  obtain ⟨run, member, first, last, rfl⟩ := lowercaseBeyond?_eq_some lowers
  generalize isCode : run.2.2.2 + (char.toNat - run.1) = code
  rw [Bool.eq_false_iff]
  intro numeral
  have inside := List.contains_iff_mem.1 numeral
  by_cases valid : code.isValidChar
  · rw [Char.ofNat, dif_pos valid] at inside
    have same : (Char.ofNatAux code valid).toNat = code := rfl
    rw [same] at inside
    exact lowercaseRuns_apart.2 run member code inside ⟨by omega, by omega⟩
  · rw [Char.ofNat, dif_neg valid] at inside
    exact absurd inside (by decide)

/-- What can stand in a number is its own lower case. -/
theorem lowercaseChar_of_isNumeral {char : Char} (numeral : isNumeral char = true)
    (before behind : List Char) : lowercaseChar before behind char = [char] := by
  by_cases ascii : char.toNat < 0x80
  · rw [lowercaseChar_of_ascii ascii]
    exact congrArg ([·]) (forall_ascii (fun char => isNumeral char = true →
      char.toLower = char) (by decide +kernel) ascii numeral)
  · have sigma : char ≠ '\u03A3' := by
      rintro rfl
      exact absurd numeral (by decide)
    have dotted : char ≠ '\u0130' := by
      rintro rfl
      exact absurd numeral (by decide)
    rw [lowercaseChar, if_neg ascii, if_neg sigma, if_neg dotted,
      lowercaseBeyond?_of_isNumeral ascii numeral]
    rfl

/-- What cannot stand in a number has a lower case of such characters. -/
theorem exists_of_not_isNumeral {char : Char} (other : isNumeral char = false)
    (before behind : List Char) :
    ∃ image ∈ lowercaseChar before behind char, isNumeral image = false := by
  unfold lowercaseChar
  by_cases ascii : char.toNat < 0x80
  · rw [if_pos ascii]
    exact ⟨_, .head _, forall_ascii (fun char => isNumeral char = false →
      isNumeral char.toLower = false) (by decide +kernel) ascii other⟩
  rw [if_neg ascii]
  split
  · split
    · exact ⟨_, .head _, by decide⟩
    · exact ⟨_, .head _, by decide⟩
  split
  · exact ⟨_, .head _, by decide⟩
  cases lowers : lowercaseBeyond? char with
  | none => exact ⟨_, .head _, other⟩
  | some image => exact ⟨_, .head _, isNumeral_of_lowercaseBeyond? lowers⟩

theorem lowercaseBehind_of_isNumeral {text : List Char} (numeral : ∀ char ∈ text, isNumeral char = true)
    (before : List Char) : lowercaseBehind before text = text := by
  induction text generalizing before with
  | nil => rfl
  | cons char rest ih =>
      obtain ⟨first, others⟩ := List.forall_mem_cons.1 numeral
      rw [lowercaseBehind, lowercaseChar_of_isNumeral first, ih others]
      rfl

theorem exists_mem_lowercaseBehind {text : List Char} {char : Char} (member : char ∈ text)
    (other : isNumeral char = false) (before : List Char) :
    ∃ image ∈ lowercaseBehind before text, isNumeral image = false := by
  induction text generalizing before with
  | nil => cases member
  | cons first rest ih =>
      rw [lowercaseBehind]
      rcases List.mem_cons.1 member with rfl | later
      · obtain ⟨image, inside, unlike⟩ := exists_of_not_isNumeral other before rest
        exact ⟨image, List.mem_append_left _ inside, unlike⟩
      · obtain ⟨image, inside, unlike⟩ := ih later (first :: before)
        exact ⟨image, List.mem_append_right _ inside, unlike⟩

/-- A text and its lower case hold the same number, if any. -/
theorem readHeldInt64?_lowercase (text : String) :
    readHeldInt64? (lowercase text) = readHeldInt64? text := by
  by_cases all : ∀ char ∈ text.toList, isNumeral char = true
  · rw [lowercase, lowercaseBehind_of_isNumeral all, String.ofList_toList]
  · obtain ⟨char, member, other⟩ : ∃ char ∈ text.toList, isNumeral char = false := by
      simpa using all
    -- Neither holds one: both have a character that stands in no number.
    have unread (text : String) (char : Char) (member : char ∈ text.toList)
        (other : isNumeral char = false) : readHeldInt64? text = none := by
      rw [Option.eq_none_iff_forall_ne_some]
      intro value reads
      exact absurd (isNumeral_of_readHeldInt64? reads char member) (by simp [other])
    obtain ⟨image, inside, unlike⟩ := exists_mem_lowercaseBehind member other []
    rw [unread text char member other, unread _ image (by simpa [lowercase] using inside) unlike]

end Medley.Text
