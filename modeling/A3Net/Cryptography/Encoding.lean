import A3Net.Cryptography.Bytes

namespace A3Net.Cryptography

open List

/-- The most significant byte stands first. -/
def bigEndian : Nat → Nat → Bytes
  | 0, _ => []
  | count + 1, value => bigEndian count (value / 256) ++ [UInt8.ofNat value]

variable {value : Nat} (count : Nat)

@[simp] theorem bigEndian_length {value : Nat} : (bigEndian count value).length = count := by
  induction count generalizing value with
  | zero => rfl
  | succ count ih => simp [bigEndian, ih]

def ofBigEndian (bytes : Bytes) : Nat :=
  bytes.foldl (fun value byte => 256 * value + byte.toNat) 0

theorem ofBigEndian_bigEndian (fits : value < 256 ^ count) :
    ofBigEndian (bigEndian count value) = value := by
  induction count generalizing value with
  | zero => exact (Nat.lt_one_iff.mp fits).symm
  | succ count ih =>
    have smaller : value / 256 < 256 ^ count := Nat.div_lt_of_lt_mul (by omega)
    have front := ih smaller
    rw [ofBigEndian] at front
    rw [bigEndian, ofBigEndian, foldl_append, front]
    simp only [foldl_cons, foldl_nil, UInt8.toNat_ofNat']
    omega

/-- A number that fits is determined by its bytes. -/
theorem bigEndian_injective {first second : Nat} (firstFits : first < 256 ^ count)
    (secondFits : second < 256 ^ count) (same : bigEndian count first = bigEndian count second) :
    first = second := by
  rw [← ofBigEndian_bigEndian count firstFits, same, ofBigEndian_bigEndian count secondFits]

/-- A word in front of other bytes is determined with them. -/
theorem bigEndian_append_injective {first second : UInt64} {rest others : Bytes}
    (same : bigEndian 8 first.toNat ++ rest = bigEndian 8 second.toNat ++ others) :
    first = second ∧ rest = others := by
  obtain ⟨words, tails⟩ := append_inj same (by simp)
  exact ⟨UInt64.toNat_inj.mp (bigEndian_injective 8 first.toNat_lt second.toNat_lt words), tails⟩

/-- The least significant byte stands first. -/
def littleEndian : Nat → Nat → Bytes
  | 0, _ => []
  | count + 1, value => UInt8.ofNat value :: littleEndian count (value / 256)

def ofLittleEndian : Bytes → Nat
  | [] => 0
  | byte :: rest => byte.toNat + 256 * ofLittleEndian rest

@[simp] theorem littleEndian_length (value : Nat) : (littleEndian count value).length = count := by
  induction count generalizing value with
  | zero => rfl
  | succ count ih => simp [littleEndian, ih]

theorem ofLittleEndian_littleEndian (fits : value < 256 ^ count) :
    ofLittleEndian (littleEndian count value) = value := by
  induction count generalizing value with
  | zero =>
    exact (Nat.lt_one_iff.mp fits).symm
  | succ count ih =>
    have smaller : value / 256 < 256 ^ count := Nat.div_lt_of_lt_mul (by omega)
    rw [littleEndian, ofLittleEndian, ih smaller, UInt8.toNat_ofNat']
    omega

/-- A field behind its length is determined with the bytes that follow it. -/
theorem framed_injective (word : Nat → Bytes) (size : ∀ value, (word value).length = count)
    {read : Bytes → Nat} {first second rest others : Bytes}
    (one : read (word first.length) = first.length)
    (other : read (word second.length) = second.length)
    (same : word first.length ++ (first ++ rest) = word second.length ++ (second ++ others)) :
    first = second ∧ rest = others := by
  obtain ⟨words, bodies⟩ := append_inj same (by rw [size, size])
  exact append_inj bodies (by rw [← one, words, other])

/-- The decoder reads two digits for each byte. -/
theorem bytesOfHexChars_length {text : List Char} {bytes : Bytes}
    (decoded : bytesOfHexChars text = some bytes) : text.length = 2 * bytes.length := by
  fun_induction bytesOfHexChars text generalizing bytes with
  | case1 =>
    cases decoded
    rfl
  | case2 => cases decoded
  | case3 high low rest ih =>
    simp only [Option.bind_eq_bind, Option.bind_eq_some_iff, Option.pure_def,
      Option.some.injEq] at decoded
    obtain ⟨_, -, _, -, tail, decodedTail, rfl⟩ := decoded
    simp only [length_cons, ih decodedTail]
    omega

theorem hexValue_lt {digit : Char} (read : hexValue digit = some value) : value < 16 := by
  unfold hexValue at read
  split_ifs at read <;> simp only [Option.some.injEq] at read <;> omega

theorem joinNibbles : ∀ high < 16, ∀ low < 16,
    UInt8.ofNat high <<< 4 ||| UInt8.ofNat low = UInt8.ofNat (16 * high + low) := by
  decide +kernel

/-- A digit is determined by its value and its case. -/
theorem hexValue_injective {first second : Char} (one : hexValue first = some value)
    (other : hexValue second = some value) (spelling : first.isUpper = second.isUpper) :
    first = second := by
  have upper : ∀ digit : Char, digit.isUpper = decide (65 ≤ digit.toNat ∧ digit.toNat ≤ 90) := by
    intro digit
    exact decide_eq_decide.mpr (and_congr UInt32.le_iff_toNat_le UInt32.le_iff_toNat_le)
  rw [upper, upper, decide_eq_decide] at spelling
  apply Char.toNat_inj.mp
  unfold hexValue at one other
  split_ifs at one other <;> simp only [Option.some.injEq] at one other <;> omega

/-- Two texts of one decoded value are one text when their letters have the same cases. -/
theorem bytesOfHexChars_injective {first second : List Char} {bytes : Bytes}
    (one : bytesOfHexChars first = some bytes) (other : bytesOfHexChars second = some bytes)
    (spelling : first.map Char.isUpper = second.map Char.isUpper) : first = second := by
  fun_induction bytesOfHexChars first generalizing second bytes with
  | case1 => exact (map_eq_nil_iff.mp spelling.symm).symm
  | case2 => cases one
  | case3 high low rest ih =>
    match second, spelling with
    | high' :: low' :: rest', spelling =>
      simp only [map_cons, cons.injEq] at spelling
      obtain ⟨highCase, lowCase, restCase⟩ := spelling
      simp only [bytesOfHexChars, Option.bind_eq_bind, Option.bind_eq_some_iff,
        Option.pure_def, Option.some.injEq] at one other
      obtain ⟨a, highOne, b, lowOne, tail, restOne, rfl⟩ := one
      obtain ⟨c, highOther, d, lowOther, tail', restOther, same⟩ := other
      have byte := congrArg UInt8.toNat (head_eq_of_cons_eq same)
      rw [UInt8.toNat_ofNat', UInt8.toNat_ofNat'] at byte
      have bounds := And.intro (hexValue_lt highOne) (hexValue_lt lowOne)
      have others := And.intro (hexValue_lt highOther) (hexValue_lt lowOther)
      obtain ⟨rfl, rfl⟩ : c = a ∧ d = b := by omega
      obtain rfl := tail_eq_of_cons_eq same
      rw [hexValue_injective highOne highOther highCase,
        hexValue_injective lowOne lowOther lowCase, ih restOne restOther restCase]

/-- The text of a digit is one byte. -/
def hexByte (nibble : Nat) : UInt8 := UInt8.ofNat (hexDigit nibble).toNat

theorem utf8EncodeChar_hexDigit :
    ∀ nibble < 16, String.utf8EncodeChar (hexDigit nibble) = [hexByte nibble] := by
  decide

theorem hexByte_injective :
    ∀ first < 16, ∀ second < 16, hexByte first = hexByte second → first = second := by
  decide

theorem utf8Chars_hexChars_cons (byte : UInt8) (rest : Bytes) :
    utf8Chars (hexChars (byte :: rest)) =
      hexByte (byte.toNat / 16) :: hexByte (byte.toNat % 16) :: utf8Chars (hexChars rest) := by
  have bound := byte.toNat_lt
  simp [utf8Chars, hexChars, utf8EncodeChar_hexDigit (byte.toNat / 16) (by omega),
    utf8EncodeChar_hexDigit (byte.toNat % 16) (by omega)]

@[simp] theorem utf8Chars_hexChars_length (bytes : Bytes) :
    (utf8Chars (hexChars bytes)).length = 2 * bytes.length := by
  induction bytes with
  | nil => rfl
  | cons byte rest ih =>
    rw [utf8Chars_hexChars_cons]
    simp only [length_cons, ih]
    omega

/-- Printed bytes are determined by the bytes of their text. -/
theorem utf8Chars_hexChars_injective :
    Function.Injective fun bytes : Bytes => utf8Chars (hexChars bytes) := by
  intro first second same
  change utf8Chars (hexChars first) = utf8Chars (hexChars second) at same
  have lengths : first.length = second.length := by
    have doubled := congrArg length same
    simp only [utf8Chars_hexChars_length] at doubled
    omega
  induction first generalizing second with
  | nil => exact (length_eq_zero_iff.mp lengths.symm).symm
  | cons byte rest ih =>
    match second with
    | other :: others =>
      simp only [utf8Chars_hexChars_cons, cons.injEq] at same
      obtain ⟨high, low, tail⟩ := same
      have bound := byte.toNat_lt
      have otherBound := other.toNat_lt
      have highs := hexByte_injective _ (by omega) _ (by omega) high
      have lows := hexByte_injective _ (by omega) _ (by omega) low
      have equal : byte = other := UInt8.toNat_inj.mp (by omega)
      rw [equal, ih tail (by simpa using lengths)]

end A3Net.Cryptography
