import Mathlib.Data.List.Basic

namespace A3Net.Machine

open List

variable {Item Error : Type*}

/-- One read takes from the first piece only. A read of nothing and the end of the pieces each have
their own error. -/
def readExact (early ending : Error) (count : Nat) :
    List (List Item) → Except Error (List Item) × List (List Item)
  | [] => if count = 0 then (.ok [], []) else (.error ending, [])
  | piece :: rest =>
    if count = 0 then (.ok [], piece :: rest)
    else if piece.isEmpty then (.error early, rest)
    else if count < piece.length then (.ok (piece.take count), piece.drop count :: rest)
    else
      match readExact early ending (count - piece.length) rest with
      | (.ok items, left) => (.ok (piece ++ items), left)
      | (.error error, left) => (.error error, left)

/-- The pieces make up the items, and no read of a piece is taken for the end. -/
structure Splits (pieces : List (List Item)) (items : List Item) : Prop where
  joined : pieces.flatten = items
  proper : ∀ piece ∈ pieces, piece ≠ []

variable {early ending : Error} {items : List Item}

theorem Splits.tail {piece : List Item} {rest : List (List Item)}
    (splits : Splits (piece :: rest) items) :
    piece ≠ [] ∧ items = piece ++ rest.flatten ∧ Splits rest rest.flatten := by
  refine ⟨splits.proper piece mem_cons_self, splits.joined.symm, rfl, ?_⟩
  exact (forall_mem_cons.mp splits.proper).2

variable {pieces : List (List Item)}

/-- However the items are split, a read gives the first ones and leaves the others. -/
theorem readExact_enough {count : Nat} (splits : Splits pieces items)
    (enough : count ≤ items.length) :
    ∃ left, readExact early ending count pieces = (.ok (items.take count), left) ∧
      Splits left (items.drop count) := by
  induction pieces generalizing items count with
  | nil =>
    obtain rfl : [] = items := splits.joined
    obtain rfl : count = 0 := Nat.le_zero.mp enough
    exact ⟨[], rfl, splits⟩
  | cons piece rest ih =>
    obtain ⟨full, rfl, later⟩ := splits.tail
    unfold readExact
    split_ifs with zero empty short
    · rw [zero]
      exact ⟨piece :: rest, rfl, splits⟩
    · exact absurd (isEmpty_iff.mp empty) full
    · refine ⟨piece.drop count :: rest, ?_, ?_, ?_⟩
      · rw [take_append_of_le_length (Nat.le_of_lt short)]
      · rw [flatten_cons, drop_append_of_le_length (Nat.le_of_lt short)]
      · exact forall_mem_cons.mpr ⟨fun none => absurd (drop_eq_nil_iff.mp none)
          (Nat.not_le.mpr short), later.proper⟩
    · have long := Nat.not_lt.mp short
      rw [length_append] at enough
      obtain ⟨left, read, split⟩ := @ih _ (count - piece.length) later (by omega)
      refine ⟨left, ?_, ?_⟩
      · rw [read, take_append, take_of_length_le long]
      · rw [drop_append, drop_eq_nil_of_le long]
        exact split

/-- A read of more than there is fails at the end. -/
theorem readExact_short {count : Nat} (splits : Splits pieces items) (short : items.length < count) :
    readExact early ending count pieces = (.error ending, []) := by
  induction pieces generalizing items count with
  | nil =>
    unfold readExact
    rw [if_neg (Nat.ne_zero_of_lt short)]
  | cons piece rest ih =>
    obtain ⟨full, rfl, later⟩ := splits.tail
    rw [length_append] at short
    unfold readExact
    rw [if_neg (Nat.ne_zero_of_lt short), if_neg (by simpa using full), if_neg (by omega),
      ih later (by omega)]

end A3Net.Machine
