import A3Net.Cryptography.Blake3
import A3Net.Cryptography.Encoding

namespace A3Net

open Cryptography

/-- The address is a text. The derived deserializer accepts every string here. -/
structure ContentHash where
  text : String
deriving DecidableEq

namespace ContentHash

def hexLen : Nat := 64

def fromBytes (bytes : Bytes) : ContentHash := ⟨toHex (blake3 bytes).bytes⟩

def asHex (hash : ContentHash) : String := hash.text

/-- The parser keeps only 64 hexadecimal digits and lowers their case. -/
def fromHex (text : String) : Except String ContentHash :=
  if text.utf8ByteSize ≠ hexLen ∨ ¬ text.toList.all (fun digit => (hexValue digit).isSome) then
    .error text
  else
    .ok ⟨text.map Char.toLower⟩

/-- A byte that is no digit counts as zero. -/
def hexNibble (byte : UInt8) : UInt8 :=
  if 0x30 ≤ byte ∧ byte ≤ 0x39 then byte - 0x30
  else if 0x61 ≤ byte ∧ byte ≤ 0x66 then byte - 0x61 + 10
  else if 0x41 ≤ byte ∧ byte ≤ 0x46 then byte - 0x41 + 10
  else 0

/-- A last byte without a partner is left out. -/
def bytesOfPairs : Bytes → Bytes
  | high :: low :: rest => (hexNibble high <<< 4 ||| hexNibble low) :: bytesOfPairs rest
  | _ => []

/-- Missing bytes are zero, and more than 32 bytes panic. -/
def asBytesArray (hash : ContentHash) : Option Digest :=
  let bytes := bytesOfPairs (utf8 hash.text)
  if fits : bytes.length ≤ 32 then
    some ⟨bytes ++ List.replicate (32 - bytes.length) 0, by simp; omega⟩
  else none

theorem hexNibble_hexByte : ∀ nibble < 16, hexNibble (hexByte nibble) = UInt8.ofNat nibble := by
  decide

theorem bytesOfPairs_hexChars {bytes : Bytes} :
    bytesOfPairs (utf8Chars (hexChars bytes)) = bytes := by
  induction bytes with
  | nil => rfl
  | cons byte rest ih =>
    have bound := byte.toNat_lt
    rw [utf8Chars_hexChars_cons, bytesOfPairs, hexNibble_hexByte _ (by omega),
      hexNibble_hexByte _ (by omega), joinNibbles _ (by omega) _ (by omega), Nat.div_add_mod,
      UInt8.ofNat_toNat, ih]

/-- This is the address of content with the digest. -/
def ofDigest (digest : Digest) : ContentHash := ⟨toHex digest.bytes⟩

theorem fromBytes_eq (bytes : Bytes) : fromBytes bytes = ofDigest (blake3 bytes) := rfl

@[simp]
theorem asBytesArray_ofDigest (digest : Digest) : (ofDigest digest).asBytesArray = some digest := by
  have decoded : bytesOfPairs (utf8 (ofDigest digest).text) = digest.bytes := by
    rw [ofDigest, toHex, utf8, String.toList_ofList]
    exact bytesOfPairs_hexChars
  simp [asBytesArray, decoded, digest.size]

theorem ofDigest_injective : Function.Injective ofDigest := by
  intro first second equal
  have views := congrArg asBytesArray equal
  simpa using views

end ContentHash

/-- This is the hash of the five bytes of `a3net`. -/
def sampleHash : ContentHash :=
  ⟨"3b6ebbd0f5d67a366527d7c36575affe3f75c88404b9da1a9a9c4cdb1a1dd525"⟩

example : ContentHash.fromBytes [0x61, 0x33, 0x6e, 0x65, 0x74] = sampleHash := by decide +kernel

end A3Net
