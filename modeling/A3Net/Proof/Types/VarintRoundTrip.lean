/-
The reader of a varint stops after nine bytes, and the table of lengths ends at five.
-/

import Mathlib.Tactic.Ring
import A3Net.Construction.Types.Cid

namespace A3Net

open Cryptography List

variable (value : UInt64)

theorem encodeVarint_eq :
    encodeVarint value = if value.toNat < 128 then [UInt8.ofNat value.toNat]
      else (UInt8.ofNat (value.toNat % 128) ||| 0x80) :: encodeVarint (value >>> 7) := by
  have low : (value &&& 0x7f).toUInt8 = UInt8.ofNat (value.toNat % 128) := by
    have bits := Nat.and_two_pow_sub_one_eq_mod (value.toNat % 256) 7
    apply UInt8.toNat_inj.mp
    simp at bits ⊢
    omega
  have ends : value >>> 7 = 0 ↔ value.toNat < 128 := by
    rw [← UInt64.toNat_inj, toNat_shiftRight_seven]
    simp
  rw [encodeVarint]
  simp only [low, ends]
  split_ifs with small
  · rw [Nat.mod_eq_of_lt small]
  · rfl

theorem encodeVarint_length_pos : 0 < (encodeVarint value).length := by
  rw [encodeVarint_eq]
  split_ifs <;> simp

/-- Each byte of a number holds seven bits. -/
theorem encodeVarint_length_le (count : Nat) (value : UInt64) :
    (encodeVarint value).length ≤ count + 1 ↔ value.toNat < 128 ^ (count + 1) := by
  induction count generalizing value with
  | zero =>
    rw [encodeVarint_eq]
    have more := encodeVarint_length_pos (value >>> 7)
    split_ifs with small
    · simpa using small
    · simp only [length_cons]
      omega
  | succ count ih =>
    rw [encodeVarint_eq]
    split_ifs with small
    · have power : 0 < 128 ^ (count + 1) := Nat.pow_pos (by decide)
      simp only [length_singleton]
      omega
    · rw [length_cons, Nat.add_le_add_iff_right, ih, toNat_shiftRight_seven,
        Nat.div_lt_iff_lt_mul (by decide), ← Nat.pow_succ]

/-- The seven bits of a byte do not depend on its mark. -/
theorem group_bits : ∀ bits < 128, UInt8.ofNat bits &&& 0x80 = 0 ∧
    (UInt8.ofNat bits &&& 0x7f).toUInt64.toNat = bits ∧ (UInt8.ofNat bits ||| 0x80) &&& 0x80 ≠ 0 ∧
      ((UInt8.ofNat bits ||| 0x80) &&& 0x7f).toUInt64.toNat = bits := by
  decide +kernel

/-- The bits of a group are added above those that were read before. -/
theorem add_group {result shift word : UInt64} {place : Nat} (above : shift.toNat = 7 * place)
    (few : place < 9) (small : result.toNat < 128 ^ place)
    (fits : result.toNat + word.toNat * 128 ^ place < 2 ^ 64) :
    (result ||| word <<< shift).toNat = result.toNat + word.toNat * 128 ^ place := by
  have power : 128 ^ place = 2 ^ (7 * place) := (Nat.pow_mul 2 7 place).symm
  rw [power] at small fits ⊢
  rw [UInt64.toNat_or, UInt64.toNat_shiftLeft, above, Nat.mod_eq_of_lt (b := 64) (by omega),
    Nat.shiftLeft_eq, Nat.mod_eq_of_lt (by omega), Nat.or_comm, Nat.mul_comm,
    ← Nat.two_pow_add_eq_or_of_lt small, Nat.add_comm]

/-- A number is read as long as its bytes last. -/
theorem decodeVarint_go {value result shift : UInt64} {rest : Bytes} {room place len : Nat}
    (above : shift.toNat = 7 * place) (few : room + place ≤ 9)
    (small : result.toNat < 128 ^ place)
    (fits : result.toNat + value.toNat * 128 ^ place < 2 ^ 64) :
    decodeVarint.go result shift len ((encodeVarint value ++ rest).take room) =
      if (encodeVarint value).length ≤ room then
        (.ofNat (result.toNat + value.toNat * 128 ^ place), len + (encodeVarint value).length)
      else (0, 0) := by
  induction room generalizing value result shift place len with
  | zero =>
    rw [if_neg (Nat.not_le.mpr (encodeVarint_length_pos value))]
    rfl
  | succ room ih =>
    rw [encodeVarint_eq]
    by_cases last : value.toNat < 128
    · rw [if_pos last]
      obtain ⟨unmarked, read, -⟩ := group_bits value.toNat last
      have added := add_group above (by omega) small (read.symm ▸ fits)
      rw [read] at added
      rw [← added, UInt64.ofNat_toNat]
      simp only [cons_append, take_succ_cons, decodeVarint.go, if_pos unmarked,
        length_singleton, Nat.le_add_left, if_true]
    · rw [if_neg last]
      obtain ⟨-, -, marked, read⟩ := group_bits (value.toNat % 128) (by omega)
      have split : value.toNat % 128 * 128 ^ place + value.toNat / 128 * 128 ^ (place + 1) =
          value.toNat * 128 ^ place := by
        conv_rhs => rw [← Nat.div_add_mod value.toNat 128]
        ring
      have added := add_group above (by omega) small (by rw [read]; omega)
      have below : value.toNat % 128 * 128 ^ place ≤ 127 * 128 ^ place :=
        Nat.mul_le_mul_right _ (by omega)
      rw [read] at added
      have later := @ih (value >>> 7) _ (shift + 7) (place + 1) (len + 1)
        (by simp [above]; omega) (by omega) (by rw [added, Nat.pow_succ]; omega)
        (by rw [added, toNat_shiftRight_seven]; omega)
      simp only [cons_append, take_succ_cons, decodeVarint.go, if_neg marked, later]
      rw [added, toNat_shiftRight_seven, Nat.add_assoc, split]
      simp only [length_cons, Nat.add_le_add_iff_right]
      rw [Nat.add_assoc, Nat.add_comm 1]

theorem decodeVarint_encodeVarint (rest : Bytes) :
    decodeVarint (encodeVarint value ++ rest) =
      if value.toNat < 2 ^ 63 then (value, (encodeVarint value).length) else (0, 0) := by
  have read := @decodeVarint_go value 0 0 rest 9 0 0 rfl (by decide) (by decide)
    (by simpa using value.toNat_lt)
  simpa [decodeVarint, encodeVarint_length_le 8 value] using read

theorem varintLen_eq_iff :
    varintLen value ≤ (encodeVarint value).length ∧
      (varintLen value = (encodeVarint value).length ↔ value.toNat < 2 ^ 35) := by
  have one := encodeVarint_length_pos value
  have lengths := fun count => encodeVarint_length_le count value
  have two := lengths 0
  have three := lengths 1
  have four := lengths 2
  have five := lengths 3
  have six := lengths 4
  simp only [varintLen, UInt64.lt_iff_toNat_lt, UInt64.reduceToNat]
  norm_num at *
  split_ifs <;> omega

namespace Multihash

variable {hash : Multihash} (held : hash.digest.length < 2 ^ 63)
include held

theorem digest_size : (UInt64.ofNat hash.digest.length).toNat = hash.digest.length :=
  UInt64.toNat_ofNat_of_lt (held.trans (by decide))

theorem fromBytes_toBytes :
    fromBytes hash.toBytes = if hash.code.toNat < 2 ^ 63 then some hash else none := by
  have front := encodeVarint_length_pos hash.code
  have middle := encodeVarint_length_pos (.ofNat hash.digest.length)
  have total : hash.toBytes.length = (encodeVarint hash.code).length +
      ((encodeVarint (.ofNat hash.digest.length)).length + hash.digest.length) := by
    simp [toBytes]
  rw [fromBytes, if_neg (by omega), total, toBytes, decodeVarint_encodeVarint]
  split_ifs with small
  · simp only [drop_left, decodeVarint_encodeVarint, digest_size held, if_pos held]
    rw [if_neg (by omega), if_neg (by omega), ← drop_drop, drop_left, drop_left,
      take_length]
  · simp

theorem encodedLen_eq_iff : hash.encodedLen = hash.toBytes.length ↔
    hash.code.toNat < 2 ^ 35 ∧ hash.digest.length < 2 ^ 35 := by
  obtain ⟨code, codeExact⟩ := varintLen_eq_iff hash.code
  obtain ⟨size, sizeExact⟩ := varintLen_eq_iff (.ofNat hash.digest.length)
  rw [digest_size held] at sizeExact
  rw [← codeExact, ← sizeExact]
  simp only [encodedLen, toBytes, length_append]
  omega

/-- A multihash is read back exactly when its code has at most 63 bits, and its length is counted
right exactly when the code and the size of the digest have at most 35 bits. -/
theorem multihash_round_trip_iff :
    (fromBytes hash.toBytes = some hash ↔ hash.code.toNat < 2 ^ 63) ∧
      (hash.encodedLen = hash.toBytes.length ↔
        hash.code.toNat < 2 ^ 35 ∧ hash.digest.length < 2 ^ 35) := by
  refine ⟨?_, encodedLen_eq_iff held⟩
  rw [fromBytes_toBytes held]
  split_ifs with small
  · exact iff_of_true rfl small
  · exact iff_of_false not_false small

omit held

theorem multihash_round_trip_blake3 :
    fromBytes (toBytes ⟨HashCode.blake3.toU64, [1, 2]⟩) =
      some ⟨HashCode.blake3.toU64, [1, 2]⟩ :=
  (multihash_round_trip_iff (by decide)).1.mpr (by decide)

/-- The ten bytes of the code are too many for the reader, and the table counts five of them. -/
theorem multihash_long_code :
    ¬ ∀ hash : Multihash, hash.digest.length < 2 ^ 63 → fromBytes hash.toBytes = some hash ∧
      hash.encodedLen = hash.toBytes.length := by
  intro right
  have read := (right ⟨0x8000000000000000, []⟩ (by decide)).1
  rw [fromBytes_toBytes (by decide), if_neg (by decide)] at read
  cases read

end Multihash
end A3Net
