import Mathlib.Data.List.Basic

namespace A3Net.Machine

open List

variable {Item : Type*} (size : Nat)

/-- The first argument bounds the number of pieces. -/
def cut : Nat → List Item → List (List Item)
  | 0, _ => []
  | _ + 1, [] => []
  | bound + 1, first :: rest =>
    (first :: rest).take size :: cut bound ((first :: rest).drop size)

def pieces (items : List Item) : List (List Item) := cut size items.length items

variable {size}

section

variable (positive : 0 < size)
include positive

theorem cut_flatten (bound : Nat) (items : List Item)
    (enough : items.length ≤ bound) : (cut size bound items).flatten = items := by
  induction bound generalizing items with
  | zero =>
    have empty : items = [] := length_eq_zero_iff.mp (Nat.le_zero.mp enough)
    rw [empty]
    rfl
  | succ bound ih =>
    cases items with
    | nil => rfl
    | cons first rest =>
      have shorter : ((first :: rest).drop size).length ≤ bound := by
        rw [length_drop]
        omega
      rw [cut, flatten_cons, ih _ shorter, take_append_drop]

theorem pieces_flatten (items : List Item) :
    (pieces size items).flatten = items :=
  cut_flatten positive items.length items (Nat.le_refl _)

/-- A piece starts at a multiple of the size. -/
theorem cut_getElem? (bound : Nat) (items : List Item)
    (enough : items.length ≤ bound) (index : Nat) :
    (cut size bound items)[index]? =
      if index * size < items.length then some ((items.drop (index * size)).take size)
      else none := by
  induction bound generalizing items index with
  | zero =>
    have empty : items = [] := length_eq_zero_iff.mp (Nat.le_zero.mp enough)
    simp [cut, empty]
  | succ bound ih =>
    cases items with
    | nil => simp [cut]
    | cons first rest =>
      cases index with
      | zero => simp [cut]
      | succ index =>
        have shorter : ((first :: rest).drop size).length ≤ bound := by
          rw [length_drop]
          omega
        rw [cut, getElem?_cons_succ, ih _ shorter, length_drop, drop_drop,
          Nat.succ_mul, Nat.add_comm size]
        congr 1
        apply propext
        omega

theorem pieces_getElem? (items : List Item) (index : Nat) :
    (pieces size items)[index]? =
      if index * size < items.length then some ((items.drop (index * size)).take size)
      else none :=
  cut_getElem? positive items.length items (Nat.le_refl _) index

theorem pieces_length_le_iff {items : List Item} {count : Nat} :
    (pieces size items).length ≤ count ↔ items.length ≤ count * size := by
  rw [← List.getElem?_eq_none_iff, pieces_getElem? positive]
  split
  · simp
    omega
  · simp
    omega

theorem pieces_length_eq {first second : List Item} (same : first.length = second.length) :
    (pieces size first).length = (pieces size second).length := by
  have bounds : ∀ count,
      (pieces size first).length ≤ count ↔ (pieces size second).length ≤ count := by
    intro count
    rw [pieces_length_le_iff positive, pieces_length_le_iff positive, same]
  exact Nat.le_antisymm ((bounds _).mpr (Nat.le_refl _)) ((bounds _).mp (Nat.le_refl _))

/-- A short piece behind whole pieces is one more piece. -/
theorem pieces_concat {done piece : List Item} (whole : size ∣ done.length)
    (nonempty : piece ≠ []) (short : piece.length ≤ size) :
    pieces size (done ++ piece) = pieces size done ++ [piece] := by
  obtain ⟨count, total⟩ := whole
  rw [Nat.mul_comm] at total
  have some_ := length_pos_iff.mpr nonempty
  have length : (pieces size done).length = count := by
    apply Nat.le_antisymm
    · exact (pieces_length_le_iff positive).mpr (Nat.le_of_eq total)
    · rw [← Nat.mul_le_mul_right_iff positive, ← total]
      exact (pieces_length_le_iff positive).mp (Nat.le_refl _)
  apply ext_getElem?
  intro index
  rw [pieces_getElem? positive, length_append, total]
  rcases Nat.lt_trichotomy index count with before | rfl | behind
  · have fits := Nat.mul_le_mul_right size before
    rw [Nat.succ_mul] at fits
    rw [getElem?_append_left (by omega), pieces_getElem? positive, if_pos (by omega),
      if_pos (by omega), drop_append_of_le_length (by omega), take_append_of_le_length]
    rw [length_drop]
    omega
  · rw [if_pos (by omega), ← total, drop_left, take_of_length_le short, ← length,
      getElem?_concat_length]
  · have beyond := Nat.mul_le_mul_right size behind
    rw [Nat.succ_mul] at beyond
    rw [if_neg (by omega), eq_comm, List.getElem?_eq_none_iff, length_append, length]
    exact behind

end

end A3Net.Machine
