/-!
# Decimal integers

Reading and writing integers in decimal.  A number is an optional sign and at least one ASCII
digit, nothing else; a bounded reader also refuses what its width cannot hold.
-/

namespace Medley.Text

/-- The number that a non-empty run of ASCII digits denotes. -/
def readDigits? (digits : List Char) : Option Nat :=
  if !digits.isEmpty && digits.all Char.isDigit then some (Nat.ofDigitChars 10 digits 0) else none

/-- The digits of a number, most significant first and without leading zeros. -/
def writeDigits (value : Nat) : List Char := Nat.toDigits 10 value

@[simp] theorem readDigits?_nil : readDigits? [] = none := rfl

theorem isDigit_of_mem_writeDigits {value : Nat} {char : Char} (member : char ∈ writeDigits value) :
    char.isDigit = true :=
  Nat.isDigit_of_mem_toDigits (by decide) (by decide) member

theorem writeDigits_ne_nil (value : Nat) : writeDigits value ≠ [] := Nat.toDigits_ne_nil

/-- Reading undoes writing. -/
@[simp] theorem readDigits?_writeDigits (value : Nat) :
    readDigits? (writeDigits value) = some value := by
  have digits : (writeDigits value).all Char.isDigit = true :=
    List.all_eq_true.2 fun _ member => isDigit_of_mem_writeDigits member
  have present : (writeDigits value).isEmpty = false := by
    simp [List.isEmpty_eq_false_iff, writeDigits_ne_nil]
  have read : Nat.ofDigitChars 10 (writeDigits value) 0 = value :=
    Nat.ofDigitChars_toDigits (by decide) (by decide)
  simp [readDigits?, digits, present, read]

/-- The integer written by an optional sign and digits. -/
def readInteger? : List Char → Option Int
  | '-' :: digits => (readDigits? digits).map fun value => -(value : Int)
  | '+' :: digits => (readDigits? digits).map fun value => (value : Int)
  | digits => (readDigits? digits).map fun value => (value : Int)

/-- An integer in decimal, with a minus sign if it is negative. -/
def writeInteger : Int → List Char
  | .ofNat value => writeDigits value
  | .negSucc value => '-' :: writeDigits (value + 1)

theorem readInteger?_of_isDigit {first : Char} {rest : List Char} (digit : first.isDigit = true) :
    readInteger? (first :: rest) = (readDigits? (first :: rest)).map fun value => (value : Int) := by
  unfold readInteger?
  split
  · next equal =>
    obtain ⟨rfl, -⟩ := List.cons.inj equal
    simp [Char.isDigit] at digit
  · next equal =>
    obtain ⟨rfl, -⟩ := List.cons.inj equal
    simp [Char.isDigit] at digit
  · rfl

theorem readInteger?_of_all_isDigit {digits : List Char}
    (all : ∀ char ∈ digits, char.isDigit = true) :
    readInteger? digits = (readDigits? digits).map fun value => (value : Int) := by
  cases digits with
  | nil => rfl
  | cons first rest => exact readInteger?_of_isDigit (all first (.head _))

/-- Reading undoes writing. -/
@[simp] theorem readInteger?_writeInteger (value : Int) :
    readInteger? (writeInteger value) = some value := by
  cases value with
  | ofNat value =>
      cases digits : writeDigits value with
      | nil => exact absurd digits (writeDigits_ne_nil value)
      | cons first rest =>
          have digit : first.isDigit = true :=
            @isDigit_of_mem_writeDigits value first (by simp [digits])
          simp only [writeInteger, digits]
          rw [readInteger?_of_isDigit digit, ← digits, readDigits?_writeDigits]
          rfl
  | negSucc value =>
      simp only [writeInteger, readInteger?, readDigits?_writeDigits,
        Int.negSucc_eq]
      rfl

/-- The integer of a text if 64 bits with a sign hold it. -/
def readInt64? (text : String) : Option Int64 :=
  (readInteger? text.toList).bind fun value =>
    if Int64.minValue.toInt ≤ value ∧ value ≤ Int64.maxValue.toInt then some (Int64.ofInt value)
    else none

theorem readInt64?_eq_some {text : String} {id : Int64} :
    readInt64? text = some id ↔ readInteger? text.toList = some id.toInt := by
  rw [readInt64?, Option.bind_eq_some_iff]
  constructor
  · rintro ⟨value, reads, fits⟩
    split at fits
    · next bounds =>
      cases fits
      rw [reads, Int64.toInt_ofInt_of_le bounds.1 (Int.lt_of_le_of_lt bounds.2 (by decide))]
    · cases fits
  · intro reads
    exact ⟨_, reads, by
      rw [if_pos ⟨Int64.minValue_le_toInt id, Int64.toInt_le id⟩, Int64.ofInt_toInt]⟩

/-- A signed 64 bit integer in decimal. -/
def writeInt64 (value : Int64) : String := String.ofList (writeInteger value.toInt)

/-- Reading undoes writing. -/
@[simp] theorem readInt64?_writeInt64 (value : Int64) :
    readInt64? (writeInt64 value) = some value := by
  rw [readInt64?_eq_some, writeInt64, String.toList_ofList, readInteger?_writeInteger]

/-- The natural number of a text, with an optional plus sign, if 64 bits hold it. -/
def readUInt64? (text : String) : Option UInt64 :=
  let digits := match text.toList with
    | '+' :: digits => digits
    | digits => digits
  (readDigits? digits).bind fun value =>
    if value < UInt64.size then some (UInt64.ofNat value) else none

/-- An unsigned 64 bit integer in decimal. -/
def writeUInt64 (value : UInt64) : String := String.ofList (writeDigits value.toNat)

/-- Reading undoes writing. -/
@[simp] theorem readUInt64?_writeUInt64 (value : UInt64) :
    readUInt64? (writeUInt64 value) = some value := by
  have fits : value.toNat < UInt64.size := value.toNat_lt
  unfold readUInt64?
  rw [writeUInt64, String.toList_ofList]
  split
  · next digits signed =>
    have digit : ('+' : Char).isDigit = true :=
      @isDigit_of_mem_writeDigits value.toNat '+' (signed ▸ .head _)
    cases digit
  · show (readDigits? (writeDigits value.toNat)).bind _ = some value
    rw [readDigits?_writeDigits, Option.bind_some, if_pos fits, UInt64.ofNat_toNat]

/-- A natural number in decimal. -/
def writeNat (value : Nat) : String := String.ofList (writeDigits value)

end Medley.Text
