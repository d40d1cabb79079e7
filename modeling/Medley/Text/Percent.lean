import Medley.Text.Utf8

/-!
# Percent encoding

A text as a name that any file system takes: letters, digits and `-_.~` stand for themselves, every
other byte of the text is a percent sign and two hexadecimal digits.
-/

namespace Medley.Text

/-- Whether a byte stands for itself. -/
def isUnreserved (byte : UInt8) : Bool :=
  let char := Char.ofNat byte.toNat
  char.isAlphanum || char ∈ ['-', '_', '.', '~']

/-- The hexadecimal digit of a number below sixteen. -/
def hexDigit (value : Nat) : Char :=
  Char.ofNat (if value < 10 then 0x30 + value else 0x37 + value)

/-- The value of a hexadecimal digit in either case. -/
def hexValue? (byte : UInt8) : Option UInt8 :=
  if 0x30 ≤ byte ∧ byte ≤ 0x39 then some (byte - 0x30)
  else if 0x41 ≤ byte ∧ byte ≤ 0x46 then some (byte - 0x37)
  else if 0x61 ≤ byte ∧ byte ≤ 0x66 then some (byte - 0x57)
  else none

/-- A byte in percent encoding. -/
def percentByte (byte : UInt8) : List Char :=
  if isUnreserved byte then [Char.ofNat byte.toNat]
  else ['%', hexDigit (byte.toNat / 16), hexDigit (byte.toNat % 16)]

/-- A text in percent encoding. -/
def percentEncode (text : String) : String :=
  String.ofList (text.toUTF8.data.toList.flatMap percentByte)

/-- Bytes with every percent sign and two hexadecimal digits replaced by the byte that they stand
for.  A percent sign without two digits stands for itself. -/
def percentDecodeBytes : List UInt8 → List UInt8
  | 0x25 :: high :: low :: rest =>
      match hexValue? high, hexValue? low with
      | some high, some low => (16 * high + low) :: percentDecodeBytes rest
      | _, _ => 0x25 :: percentDecodeBytes (high :: low :: rest)
  | byte :: rest => byte :: percentDecodeBytes rest
  | [] => []

/-- The text that a text in percent encoding stands for. -/
def percentDecode (text : String) : Except Utf8Fault String :=
  ofBytes ⟨(percentDecodeBytes text.toUTF8.data.toList).toArray⟩

example : hexValue? 0x46 = some 15 := by decide

end Medley.Text
