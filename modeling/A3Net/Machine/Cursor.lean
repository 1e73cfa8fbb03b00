import Mathlib.Data.List.Infix
import Mathlib.Data.List.Nodup

namespace A3Net.Machine

open List

variable {Item : Type*} (number : Item → Nat) (items : List Item)

/-- The numbers of the items increase strictly. -/
def Increasing : Prop :=
  items.Pairwise fun first second => number first < number second

/-- The items after the mark are pending. -/
def pending (mark : Nat) : List Item :=
  items.filter fun item => mark < number item

/-- The mark moves to the last item of a batch. -/
def advance (mark : Nat) (batch : List Item) : Nat := (batch.getLast?.map number).getD mark

@[simp] theorem advance_nil (mark : Nat) : advance number mark [] = mark := rfl

variable {mark : Nat} {batch : List Item} {item : Item}

@[simp] theorem advance_concat : advance number mark (batch ++ [item]) = number item := by
  simp [advance]

@[simp] theorem mem_pending {items : List Item} :
    item ∈ pending number items mark ↔ item ∈ items ∧ mark < number item := by
  simp [pending]

variable {number} {items : List Item}

section

variable (increasing : Increasing number items)
include increasing

theorem Increasing.pending (mark : Nat) :
    Increasing number (pending number items mark) :=
  List.Pairwise.filter _ increasing

/-- Two items of one number are one item. -/
theorem Increasing.injective {first second : Item}
    (member : first ∈ items) (other : second ∈ items) (same : number first = number second) :
    first = second := by
  have distinct : (items.map number).Nodup :=
    pairwise_map.mpr (List.Pairwise.imp (fun less => less.ne) increasing)
  exact inj_on_of_nodup_map distinct member other same

/-- An increasing list repeats no item. -/
theorem Increasing.nodup : items.Nodup :=
  List.Pairwise.imp (fun less same => less.ne (congrArg number same)) increasing

/-- The last item of an increasing list has the greatest number. -/
theorem Increasing.le_last {last : Item} (final : items.getLast? = some last)
    (member : item ∈ items) : number item ≤ number last := by
  obtain ⟨front, rfl⟩ := getLast?_eq_some_iff.mp final
  obtain ⟨-, -, below⟩ := pairwise_append.mp increasing
  rcases mem_append.mp member with earlier | same
  · exact (below item earlier last (mem_singleton_self last)).le
  · rw [mem_singleton.mp same]

end

/-- A batch of pending items never moves the mark back, and the mark covers the batch. -/
theorem advance_bounds (increasing : Increasing number batch)
    (after : ∀ item ∈ batch, mark < number item) :
    mark ≤ advance number mark batch ∧ ∀ item ∈ batch, number item ≤ advance number mark batch := by
  rcases eq_nil_or_concat' batch with rfl | ⟨front, last, rfl⟩
  · simp
  · obtain ⟨-, -, below⟩ := pairwise_append.mp increasing
    rw [advance_concat]
    refine ⟨(after last (by simp)).le, fun item member => ?_⟩
    rcases mem_append.mp member with front | last
    · exact (below item front last (by simp)).le
    · rw [mem_singleton.mp last]

/-- The new mark is the old one or the number of an item in the batch. -/
theorem advance_mem {number : Item → Nat} :
    advance number mark batch = mark ∨ ∃ item ∈ batch, number item = advance number mark batch := by
  rcases eq_nil_or_concat' batch with rfl | ⟨front, last, rfl⟩
  · exact Or.inl rfl
  · exact Or.inr ⟨last, by simp, (advance_concat number).symm⟩

/-- A mark between two parts of a list leaves the second part pending. -/
theorem pending_append {front back : List Item} (covered : ∀ item ∈ front, number item ≤ mark)
    (after : ∀ item ∈ back, mark < number item) : pending number (front ++ back) mark = back := by
  have gone : pending number front mark = [] := by
    apply filter_eq_nil_iff.mpr
    intro item member
    simpa using covered item member
  have left : pending number back mark = back := by
    apply filter_eq_self.mpr
    intro item member
    simpa using after item member
  calc pending number (front ++ back) mark
      = pending number front mark ++ pending number back mark := filter_append front back
    _ = back := by rw [gone, left, nil_append]

/-- What is pending after a later mark was pending before. -/
theorem pending_pending {items : List Item} {later : Nat} (forward : mark ≤ later) :
    pending number (pending number items mark) later = pending number items later := by
  rw [pending, pending, pending, filter_filter]
  apply filter_congr
  intro item _
  rw [Bool.eq_iff_iff]
  simp only [decide_eq_true_eq, Bool.and_eq_true]
  omega

/-- After a batch from the front of the pending items, the others are pending. -/
theorem pending_advance (increasing : Increasing number items) {count : Nat} :
    pending number items (advance number mark ((pending number items mark).take count)) =
      (pending number items mark).drop count := by
  have sorted := increasing.pending mark
  have waiting : ∀ item ∈ pending number items mark, mark < number item := fun item member =>
    ((mem_pending number).mp member).2
  generalize split : pending number items mark = list at sorted waiting ⊢
  have parts := take_append_drop count list
  rw [← parts] at sorted
  obtain ⟨first, -, across⟩ := pairwise_append.mp sorted
  obtain ⟨forward, covered⟩ := advance_bounds first fun item member =>
    waiting item (mem_of_mem_take member)
  have after : ∀ item ∈ list.drop count, advance number mark (list.take count) < number item := by
    intro item member
    rcases advance_mem with same | ⟨last, inside, same⟩
    · rw [same]
      exact waiting item (mem_of_mem_drop member)
    · rw [← same]
      exact across last inside item member
  calc pending number items (advance number mark (list.take count))
      = pending number list (advance number mark (list.take count)) := by
        rw [← split, pending_pending (split ▸ forward)]
    _ = pending number (list.take count ++ list.drop count)
          (advance number mark (list.take count)) := by rw [parts]
    _ = list.drop count := pending_append covered after

end A3Net.Machine
