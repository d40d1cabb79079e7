import Medley.Text.Integer

/-!
# UTF-8

Bytes read as text, and where bytes stop being text.  Every character is a first byte and as many
further bytes as the first one asks for, each in the range that keeps the encoding unique.
-/

namespace Medley.Text

/-- Where bytes stop being UTF-8: the index of the first byte that belongs to no character, and how
many bytes of a character were begun there; `none` if the bytes end within a character. -/
structure Utf8Fault where
  index : Nat
  length : Option Nat
  deriving DecidableEq, Repr

/-- The fault in words. -/
def Utf8Fault.text (fault : Utf8Fault) : String :=
  match fault.length with
  | some length =>
      "invalid utf-8 sequence of " ++ writeNat length ++ " bytes from index " ++
        writeNat fault.index
  | none => "incomplete utf-8 byte sequence from index " ++ writeNat fault.index

/-- The range of bytes that carry on a character. -/
def continuation : UInt8 × UInt8 := (0x80, 0xBF)

/-- The ranges of the bytes that follow a first byte; `none` if no character starts with it. -/
def followers (first : UInt8) : Option (List (UInt8 × UInt8)) :=
  if first < 0x80 then some []
  else if first < 0xC2 then none
  else if first < 0xE0 then some [continuation]
  else if first = 0xE0 then some [(0xA0, 0xBF), continuation]
  else if first = 0xED then some [(0x80, 0x9F), continuation]
  else if first < 0xF0 then some [continuation, continuation]
  else if first = 0xF0 then some [(0x90, 0xBF), continuation, continuation]
  else if first < 0xF4 then some [continuation, continuation, continuation]
  else if first = 0xF4 then some [(0x80, 0x8F), continuation, continuation]
  else none

/-- The first fault in the rest of some bytes, when a character that starts at an index has had some
bytes and waits for more in given ranges. -/
def faultFrom (index taken : Nat) : List (UInt8 × UInt8) → List UInt8 → Option Utf8Fault
  | [], [] => none
  | _ :: _, [] => some ⟨index, none⟩
  | [], byte :: rest =>
      match followers byte with
      | some ranges => faultFrom (index + taken) 1 ranges rest
      | none => some ⟨index + taken, some 1⟩
  | (low, high) :: ranges, byte :: rest =>
      if low ≤ byte ∧ byte ≤ high then faultFrom index (taken + 1) ranges rest
      else some ⟨index, some taken⟩

/-- The first fault in some bytes. -/
def utf8Fault? (bytes : List UInt8) : Option Utf8Fault := faultFrom 0 0 [] bytes

/-- The text that some bytes encode. -/
def ofBytes (bytes : ByteArray) : Except Utf8Fault String :=
  match String.fromUTF8? bytes with
  | some text => .ok text
  | none => .error ((utf8Fault? bytes.data.toList).getD ⟨bytes.size, none⟩)

/-- Bytes that encode a text read as that text. -/
@[simp] theorem ofBytes_toUTF8 (text : String) : ofBytes text.toUTF8 = .ok text := by
  simp [ofBytes, String.fromUTF8?, String.toUTF8, String.fromUTF8, text.isValidUTF8]

end Medley.Text
