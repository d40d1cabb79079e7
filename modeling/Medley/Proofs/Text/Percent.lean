import Medley.Text.Percent

/-!
# Percent encoding is undone

A text in percent encoding is read back as it was (`Text.percentDecode_percentEncode`): every byte becomes
either itself, and no percent sign, or a percent sign with the two digits of its value.  So no two texts
have the same name in percent encoding.
-/

namespace Medley.Text

/-- The bytes that a byte becomes. -/
def percentBytes (byte : UInt8) : List UInt8 := (percentByte byte).flatMap String.utf8EncodeChar

theorem percentBytes_of_unreserved {byte : UInt8} (unreserved : isUnreserved byte = true) :
    percentBytes byte = [byte] ∧ byte ≠ 0x25 := by
  have each : ∀ number < 256, isUnreserved (UInt8.ofNat number) = true →
      percentBytes (UInt8.ofNat number) = [UInt8.ofNat number] ∧ UInt8.ofNat number ≠ 0x25 := by
    decide +kernel
  have here := each byte.toNat byte.toNat_lt
  rw [UInt8.ofNat_toNat] at here
  exact here unreserved

theorem percentBytes_of_reserved {byte : UInt8} (reserved : isUnreserved byte = false) :
    ∃ first second high low, percentBytes byte = [0x25, first, second] ∧ hexValue? first = some high ∧
      hexValue? second = some low ∧ 16 * high + low = byte := by
  let digit (value : Nat) : UInt8 := UInt8.ofNat (hexDigit value).toNat
  have digits : ∀ value < 16, String.utf8EncodeChar (hexDigit value) = [digit value] ∧
      hexValue? (digit value) = some (UInt8.ofNat value) := by
    decide +kernel
  have values : ∀ value < 256, 16 * UInt8.ofNat (value / 16) + UInt8.ofNat (value % 16) =
      UInt8.ofNat value := by
    decide +kernel
  have bound := byte.toNat_lt
  obtain ⟨encodesHigh, readsHigh⟩ := digits (byte.toNat / 16) (by omega)
  obtain ⟨encodesLow, readsLow⟩ := digits (byte.toNat % 16) (by omega)
  refine ⟨_, _, _, _, ?_, readsHigh, readsLow, ?_⟩
  · have written : percentByte byte =
        ['%', hexDigit (byte.toNat / 16), hexDigit (byte.toNat % 16)] := by
      rw [percentByte, reserved, if_neg Bool.false_ne_true]
    rw [percentBytes, written, List.flatMap_cons, List.flatMap_cons, List.flatMap_cons, encodesHigh,
      encodesLow]
    rfl
  · rw [values byte.toNat bound, UInt8.ofNat_toNat]

theorem percentDecodeBytes_cons {byte : UInt8} (plain : byte ≠ 0x25) (rest : List UInt8) :
    percentDecodeBytes (byte :: rest) = byte :: percentDecodeBytes rest := by
  rw [percentDecodeBytes]
  rintro _ _ _ rfl
  exact absurd rfl plain

theorem percentDecodeBytes_percentBytes (byte : UInt8) (rest : List UInt8) :
    percentDecodeBytes (percentBytes byte ++ rest) = byte :: percentDecodeBytes rest := by
  cases unreserved : isUnreserved byte with
  | true =>
      obtain ⟨same, plain⟩ := percentBytes_of_unreserved unreserved
      rw [same]
      exact percentDecodeBytes_cons plain rest
  | false =>
      obtain ⟨first, second, high, low, same, isHigh, isLow, value⟩ :=
        percentBytes_of_reserved unreserved
      rw [same, List.cons_append, List.cons_append, List.cons_append, List.nil_append,
        percentDecodeBytes, isHigh, isLow]
      exact congrArg (· :: percentDecodeBytes rest) value

/-- Decoding undoes encoding. -/
theorem percentDecode_percentEncode (text : String) : percentDecode (percentEncode text) = .ok text := by
  have encodes : (percentEncode text).toUTF8.data.toList =
      text.toUTF8.data.toList.flatMap percentBytes := by
    simp [percentEncode, List.utf8Encode, List.flatMap_assoc]
    rfl
  have decodes : ∀ bytes : List UInt8, percentDecodeBytes (bytes.flatMap percentBytes) = bytes := by
    intro bytes
    induction bytes with
    | nil => rfl
    | cons byte rest ih => rw [List.flatMap_cons, percentDecodeBytes_percentBytes, ih]
  rw [percentDecode, encodes, decodes]
  exact ofBytes_toUTF8 text

theorem percentEncode_injective : Function.Injective percentEncode := by
  intro left right same
  have decoded := congrArg percentDecode same
  rw [percentDecode_percentEncode, percentDecode_percentEncode] at decoded
  exact Except.ok.inj decoded

end Medley.Text
