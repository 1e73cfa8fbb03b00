import Mathlib.Data.List.Forall2

namespace A3Net.Machine

universe u

theorem ok_bind {Error : Type*} {Middle Value : Type u} (middle : Middle)
    (next : Middle → Except Error Value) : (Except.ok middle >>= next) = next middle :=
  rfl

theorem bind_ok_iff {Error : Type*} {Middle Value : Type u} {result : Except Error Middle}
    {next : Middle → Except Error Value} {value : Value} :
    (result >>= next) = .ok value ↔ ∃ middle, result = .ok middle ∧ next middle = .ok value := by
  cases result <;> simp [bind, Except.bind]

variable {Error State Item Entry Made : Type*}

/-- When each step of a loop appends what its item asks for, so does the loop. -/
theorem foldlM_extends {step : State → Item → Except Error State} (view : State → List Made)
    (asked : Item → List Entry) {related : Made → Entry → Prop}
    (one : ∀ state item next, step state item = .ok next →
      ∃ new, view next = view state ++ new ∧ List.Forall₂ related new (asked item))
    {items : List Item} {state final : State} (done : items.foldlM step state = .ok final) :
    ∃ new, view final = view state ++ new ∧ List.Forall₂ related new (items.flatMap asked) := by
  induction items generalizing state with
  | nil =>
    obtain rfl : state = final := Except.ok.inj done
    exact ⟨[], (List.append_nil _).symm, List.Forall₂.nil⟩
  | cons item rest ih =>
    obtain ⟨next, stepped, done⟩ := bind_ok_iff.mp done
    obtain ⟨first, firstView, firstMade⟩ := one state item next stepped
    obtain ⟨later, laterView, laterMade⟩ := ih done
    refine ⟨first ++ later, ?_, ?_⟩
    · rw [laterView, firstView, List.append_assoc]
    · exact List.rel_append firstMade laterMade

end A3Net.Machine
