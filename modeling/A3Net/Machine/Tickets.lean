import A3Net.Machine.Ledger

namespace A3Net.Machine

open Function

/-- The tickets above the low mark and up to the high mark are held, each by one task. -/
structure Tickets {Task : Type*} (ticket : Task → Option Nat) (low high : Nat) : Prop where
  le : low ≤ high
  range : ∀ task number, ticket task = some number → low < number ∧ number ≤ high
  covered : ∀ number, low < number → number ≤ high → ∃ task, ticket task = some number
  injective : ∀ task other number, ticket task = some number → ticket other = some number →
    task = other

namespace Tickets

variable {Task : Type*} {ticket : Task → Option Nat} {low high : Nat}

theorem none (mark : Nat) : Tickets (fun _ : Task => Option.none) mark mark where
  le := Nat.le_refl mark
  range _ _ holds := by cases holds
  covered _ above below := absurd above (Nat.not_lt.mpr below)
  injective _ _ _ holds := by cases holds

/-- When no task holds a ticket, the marks meet. -/
theorem eq_of_none (tickets : Tickets ticket low high) (idle : ∀ task, ticket task = .none) :
    low = high := by
  refine Nat.le_antisymm tickets.le (Nat.le_of_not_lt fun below => ?_)
  obtain ⟨task, holds⟩ := tickets.covered high below (Nat.le_refl high)
  cases (idle task).symm.trans holds

/-- The least ticket is the one above the low mark. -/
theorem eq_of_least (tickets : Tickets ticket low high) {task : Task} {number : Nat}
    (holds : ticket task = some number)
    (least : ∀ other older, ticket other = some older → number ≤ older) : number = low + 1 := by
  obtain ⟨above, below⟩ := tickets.range task number holds
  obtain ⟨other, first⟩ := tickets.covered (low + 1) (Nat.lt_succ_self low)
    (Nat.le_trans above below)
  exact Nat.le_antisymm (least other (low + 1) first) above

variable [DecidableEq Task]

/-- A task without a ticket takes the next one. -/
theorem take (tickets : Tickets ticket low high) {task : Task} (free : ticket task = .none) :
    Tickets (update ticket task (some (high + 1))) low (high + 1) where
  le := Nat.le_succ_of_le tickets.le
  range other number holds := by
    rcases update_eq_some_iff.mp holds with ⟨_, same⟩ | ⟨_, before⟩
    · obtain rfl := Option.some.inj same
      exact ⟨Nat.lt_succ_of_le tickets.le, Nat.le_refl _⟩
    · obtain ⟨above, below⟩ := tickets.range other number before
      exact ⟨above, Nat.le_succ_of_le below⟩
  covered number above below := by
    by_cases last : number = high + 1
    · exact ⟨task, last ▸ update_self ..⟩
    · obtain ⟨other, holds⟩ := tickets.covered number above (by omega)
      have ne : other ≠ task := by
        rintro rfl
        cases free.symm.trans holds
      exact ⟨other, (update_of_ne ne ..).trans holds⟩
  injective := by
    apply single_update tickets.injective
    rintro other _ _ ⟨⟩ holds
    exact absurd (tickets.range other _ holds).2 (Nat.not_succ_le_self high)

/-- The task with the least ticket gives it back. -/
theorem give (tickets : Tickets ticket low high) {task : Task}
    (holds : ticket task = some (low + 1)) :
    Tickets (update ticket task .none) (low + 1) high where
  le := (tickets.range task (low + 1) holds).2
  range other number held := by
    obtain ⟨apart, before⟩ := (update_eq_some_iff.mp held).resolve_left nofun
    obtain ⟨above, below⟩ := tickets.range other number before
    have ne : number ≠ low + 1 := by
      rintro rfl
      exact apart (tickets.injective other task _ before holds)
    exact ⟨by omega, below⟩
  covered number above below := by
    obtain ⟨other, held⟩ := tickets.covered number (by omega) below
    have ne : other ≠ task := by
      rintro rfl
      have := Option.some.inj (held.symm.trans holds)
      omega
    exact ⟨other, (update_of_ne ne ..).trans held⟩
  injective := single_update tickets.injective nofun

end Tickets
end A3Net.Machine
