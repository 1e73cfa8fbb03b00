import Mathlib.Algebra.Ring.Nat
import Mathlib.Data.List.Basic

namespace A3Net

open Option

abbrev Bytes := List UInt8

namespace Cryptography

def utf8Chars (text : List Char) : Bytes := text.flatMap String.utf8EncodeChar

/-- These are the bytes of a text. -/
def utf8 (text : String) : Bytes := utf8Chars text.toList

variable (bytes : Bytes)

/-- Bytes that are no text are refused. -/
def fromUtf8 : Option (List Char) :=
  bytes.toByteArray.utf8Decode?.map Array.toList

@[simp] theorem fromUtf8_utf8Chars {text : List Char} : fromUtf8 (utf8Chars text) = some text := by
  change (text.utf8Encode.utf8Decode?.map Array.toList) = some text
  rw [List.utf8Decode?_utf8Encode]
  rfl

theorem utf8_injective : Function.Injective utf8 := by
  intro first second equal
  have texts := congrArg fromUtf8 equal
  simp only [utf8, fromUtf8_utf8Chars, some.injEq] at texts
  exact String.toList_inj.mp texts

theorem utf8Chars_of_fromUtf8 {bytes : Bytes} {text : List Char}
    (decoded : fromUtf8 bytes = some text) : utf8Chars text = bytes := by
  unfold fromUtf8 at decoded
  cases read : bytes.toByteArray.utf8Decode? with
  | none => simp [read] at decoded
  | some characters =>
    simp only [read, map_some, some.injEq] at decoded
    have valid : bytes.toByteArray.utf8Decode?.isSome := by rw [read]; rfl
    have whole := ByteArray.utf8Encode_get_utf8Decode? (h := valid)
    simp only [read, get_some, decoded] at whole
    have same : (utf8Chars text).toByteArray = bytes.toByteArray := whole
    have lists := congrArg (fun array => array.data.toList) same
    simpa using lists

/-- Lowercase digits print the nibbles of a byte. -/
def hexDigit (nibble : Nat) : Char :=
  if nibble < 10 then Char.ofNat (48 + nibble) else Char.ofNat (87 + nibble)

def hexChars : List Char :=
  bytes.flatMap fun byte => [hexDigit (byte.toNat / 16), hexDigit (byte.toNat % 16)]

theorem hexChars_length : (hexChars bytes).length = 2 * bytes.length := by
  induction bytes with
  | nil => rfl
  | cons byte rest ih =>
    rw [hexChars, List.flatMap_cons, List.length_append, ← hexChars, ih, List.length_cons]
    simp only [List.length_cons, List.length_nil]
    omega

/-- This is the text of `hex::encode` and of `blake3::Hash::to_hex`. -/
def toHex : String := String.ofList (hexChars bytes)

/-- The decoder reads a digit of either case. -/
def hexValue (digit : Char) : Option Nat :=
  if 48 ≤ digit.toNat ∧ digit.toNat ≤ 57 then some (digit.toNat - 48)
  else if 97 ≤ digit.toNat ∧ digit.toNat ≤ 102 then some (digit.toNat - 87)
  else if 65 ≤ digit.toNat ∧ digit.toNat ≤ 70 then some (digit.toNat - 55)
  else none

def bytesOfHexChars : List Char → Option Bytes
  | [] => some []
  | [_] => none
  | high :: low :: rest => do
      let highValue ← hexValue high
      let lowValue ← hexValue low
      let bytes ← bytesOfHexChars rest
      return UInt8.ofNat (16 * highValue + lowValue) :: bytes

/-- This is `hex::decode`, with its error text left out. -/
def fromHex (text : String) : Option Bytes := bytesOfHexChars text.toList

theorem hexValue_hexDigit : ∀ nibble < 16, hexValue (hexDigit nibble) = some nibble := by
  decide

theorem bytesOfHexChars_hexChars : bytesOfHexChars (hexChars bytes) = some bytes := by
  induction bytes with
  | nil => rfl
  | cons byte rest ih =>
    have bound := byte.toNat_lt
    have high := hexValue_hexDigit (byte.toNat / 16) (by omega)
    have low := hexValue_hexDigit (byte.toNat % 16) (by omega)
    have whole : 16 * (byte.toNat / 16) + byte.toNat % 16 = byte.toNat := by omega
    change bytesOfHexChars (hexDigit (byte.toNat / 16) :: hexDigit (byte.toNat % 16) ::
      hexChars rest) = _
    simp only [bytesOfHexChars, high, low, ih, bind_eq_bind, bind_some, whole, UInt8.ofNat_toNat]
    rfl

end Cryptography
end A3Net
