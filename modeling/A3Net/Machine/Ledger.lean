/-
This file keeps numbers apart that are handed out to several callers: a caller holds a number before
the number counts as issued.
-/

import Mathlib.Data.List.Basic

namespace A3Net.Machine

open Function

section Update

variable {Caller Number : Type*} [DecidableEq Caller] {held : Caller → Option Number}
  {caller : Caller} {value : Option Number}

theorem update_eq_some_iff {other : Caller} {number : Number} :
    update held caller value other = some number ↔
      (other = caller ∧ value = some number) ∨ (other ≠ caller ∧ held other = some number) := by
  by_cases same : other = caller
  · subst same
    simp
  · simp [same]

/-- A number that nobody else holds gets one holder. -/
theorem single_update
    (single : ∀ first second number, held first = some number → held second = some number →
      first = second)
    (free : ∀ other number, other ≠ caller → value = some number → held other ≠ some number)
    (first second : Caller) (number : Number) (one : update held caller value first = some number)
    (two : update held caller value second = some number) : first = second := by
  rcases update_eq_some_iff.mp one with ⟨rfl, mine⟩ | ⟨ne, before⟩
  · rcases update_eq_some_iff.mp two with ⟨rfl, _⟩ | ⟨ne, before⟩
    · rfl
    · exact absurd before (free second number ne mine)
  · rcases update_eq_some_iff.mp two with ⟨rfl, mine⟩ | ⟨_, also⟩
    · exact absurd before (free first number ne mine)
    · exact single first second number before also

end Update

structure Ledger (Caller Number : Type*) where
  held : Caller → Option Number
  issued : List Number

namespace Ledger

variable {Caller Number : Type*}

/-- No number is issued twice, and a number that is held is held once and not issued. -/
structure Distinct (ledger : Ledger Caller Number) : Prop where
  nodup : ledger.issued.Nodup
  unissued : ∀ caller number, ledger.held caller = some number → number ∉ ledger.issued
  single : ∀ first second number, ledger.held first = some number →
    ledger.held second = some number → first = second

/-- Nobody else has the number. -/
def Fresh (ledger : Ledger Caller Number) (caller : Caller) (number : Number) : Prop :=
  number ∉ ledger.issued ∧ ∀ other, other ≠ caller → ledger.held other ≠ some number

variable [DecidableEq Caller] (ledger : Ledger Caller Number) (caller : Caller) (number : Number)

def claim : Ledger Caller Number :=
  {ledger with held := update ledger.held caller (some number)}

def release : Ledger Caller Number :=
  {ledger with held := update ledger.held caller none}

/-- The number goes from the caller to the issued ones. -/
def hand : Ledger Caller Number :=
  {(ledger.release caller) with issued := number :: ledger.issued}

variable {ledger} {number : Number} {caller : Caller}

theorem Distinct.claim (distinct : ledger.Distinct) (fresh : ledger.Fresh caller number) :
    (ledger.claim caller number).Distinct := by
  constructor
  · exact distinct.nodup
  · intro other value holds
    rcases update_eq_some_iff.mp holds with ⟨_, same⟩ | ⟨_, before⟩
    · exact Option.some.inj same ▸ fresh.1
    · exact distinct.unissued other value before
  · apply single_update distinct.single
    rintro other _ ne ⟨⟩
    exact fresh.2 other ne

theorem held_release {other : Caller} (holds : (ledger.release caller).held other = some number) :
    other ≠ caller ∧ ledger.held other = some number :=
  (update_eq_some_iff.mp holds).resolve_left nofun

theorem Distinct.release (distinct : ledger.Distinct) (caller : Caller) :
    (ledger.release caller).Distinct := by
  constructor
  · exact distinct.nodup
  · intro other number holds
    exact distinct.unissued other number (held_release holds).2
  · intro first second number firstHolds secondHolds
    exact distinct.single first second number (held_release firstHolds).2
      (held_release secondHolds).2

theorem Distinct.hand (distinct : ledger.Distinct) (holds : ledger.held caller = some number) :
    (ledger.hand caller number).Distinct := by
  have released := distinct.release caller
  constructor
  · exact List.nodup_cons.mpr ⟨distinct.unissued caller number holds, distinct.nodup⟩
  · intro other value held
    obtain ⟨ne, before⟩ := held_release held
    intro member
    rcases List.mem_cons.mp member with rfl | issued
    · exact ne (distinct.single other caller value before holds)
    · exact distinct.unissued other value before issued
  · exact released.single

end Ledger
end A3Net.Machine
