import Mathlib.Algebra.BigOperators.Group.Finset.Piecewise
import Mathlib.Data.Fintype.Basic

namespace A3Net.Machine

open Function Finset

variable {Task Phase : Type*} [Fintype Task]

/-- So many tasks are in a phase that passes the test. -/
def tally (phase : Task → Phase) (test : Phase → Bool) : Nat :=
  (univ.filter fun task => test (phase task) = true).card

variable {phase : Task → Phase}

theorem tally_le {first second : Phase → Bool}
    (implies : ∀ task, first (phase task) = true → second (phase task) = true) :
    tally phase first ≤ tally phase second :=
  card_le_card (monotone_filter_right _ fun task _ => implies task)

theorem tally_eq_zero {test : Phase → Bool} (fails : ∀ task, test (phase task) = false) :
    tally phase test = 0 := by
  rw [tally, card_eq_zero, filter_eq_empty_iff]
  intro task _
  rw [fails]
  exact Bool.false_ne_true

/-- One task goes to another phase. -/
theorem tally_update [DecidableEq Task] (phase : Task → Phase) (task : Task) (next : Phase)
    (test : Phase → Bool) :
    tally (update phase task next) test + (test (phase task)).toNat =
      tally phase test + (test next).toNat := by
  have rest : ∀ other ∈ univ.erase task,
      (if test (update phase task next other) = true then 1 else 0) =
        if test (phase other) = true then 1 else 0 := by
    intro other member
    rw [update_of_ne (ne_of_mem_erase member)]
  have bit : ∀ value : Bool, (if value = true then 1 else 0) = value.toNat := by decide
  simp only [tally, card_filter]
  rw [← add_sum_erase univ _ (mem_univ task),
    ← add_sum_erase univ (fun other => if test (phase other) = true then 1 else 0)
      (mem_univ task), sum_congr rfl rest, update_self, bit, bit]
  omega

/-- The free permits and the held permits are all permits of the semaphore. -/
def Settled (limit available : Nat) (phase : Task → Phase) (holds : Phase → Bool) : Prop :=
  available + tally phase holds = limit

namespace Settled

variable {limit available : Nat} {holds : Phase → Bool}

theorem tally_le_limit (settled : Settled limit available phase holds) :
    tally phase holds ≤ limit := by
  unfold Settled at settled
  omega

/-- A semaphore with all its permits is held by no task. -/
theorem holds_none (settled : Settled limit limit phase holds) {task : Task} :
    holds (phase task) = false := by
  have none : tally phase holds = 0 := by
    unfold Settled at settled
    omega
  rw [tally, card_eq_zero, filter_eq_empty_iff] at none
  exact Bool.eq_false_of_not_eq_true (none (mem_univ task))

variable [DecidableEq Task] {task : Task} {next : Phase}

section

variable (settled : Settled limit available phase holds)
include settled

theorem keep (same : holds (phase task) = holds next) :
    Settled limit available (update phase task next) holds := by
  have moved := tally_update phase task next holds
  unfold Settled at *
  rw [same] at moved
  omega

theorem take (free : 0 < available)
    (before : holds (phase task) = false) (after : holds next = true) :
    Settled limit (available - 1) (update phase task next) holds := by
  have moved := tally_update phase task next holds
  unfold Settled at *
  rw [before, after] at moved
  simp only [Bool.toNat_false, Bool.toNat_true] at moved
  omega

theorem give (before : holds (phase task) = true) (after : holds next = false) :
    Settled limit (available + 1) (update phase task next) holds := by
  have moved := tally_update phase task next holds
  unfold Settled at *
  rw [before, after] at moved
  simp only [Bool.toNat_false, Bool.toNat_true] at moved
  omega

end

end Settled
end A3Net.Machine
