import Mathlib.Data.List.Basic

namespace A3Net.Machine

variable {Item Other Verdict : Type*}

/-- The first item that passes the test gives the verdict. -/
def firstMatch (test : Item → Bool) (verdict : Item → Verdict) (otherwise : Verdict) :
    List Item → Verdict
  | [] => otherwise
  | item :: rest =>
    if test item then verdict item else firstMatch test verdict otherwise rest

variable {test keep : Item → Bool} {verdict : Item → Verdict} {otherwise : Verdict}
  (items : List Item)

theorem firstMatch_eq_head :
    firstMatch test verdict otherwise items =
      (((items.filter test).head?).map verdict).getD otherwise := by
  induction items with
  | nil => rfl
  | cons item rest ih =>
    by_cases passes : test item = true
    · simp [firstMatch, passes]
    · simp [firstMatch, passes, ih]

/-- A second test may be made by leaving items out before. -/
theorem firstMatch_and :
    firstMatch (fun item => keep item && test item) verdict otherwise items =
      firstMatch test verdict otherwise (items.filter keep) := by
  rw [firstMatch_eq_head, firstMatch_eq_head, List.filter_filter]
  have order : (fun item => keep item && test item) = fun item => test item && keep item := by
    funext item
    exact Bool.and_comm _ _
  rw [order]

theorem firstMatch_congr {other : Item → Bool} {items : List Item}
    (same : ∀ item ∈ items, test item = other item) :
    firstMatch test verdict otherwise items = firstMatch other verdict otherwise items := by
  rw [firstMatch_eq_head, firstMatch_eq_head, List.filter_congr same]

/-- A function of the verdict may be applied to each item's verdict. -/
theorem apply_firstMatch {Result : Type*} (change : Verdict → Result) (items : List Item) :
    change (firstMatch test verdict otherwise items) =
      firstMatch test (fun item => change (verdict item)) (change otherwise) items := by
  induction items with
  | nil => rfl
  | cons item rest ih =>
    simp only [firstMatch, apply_ite change, ih]

/-- Two lists whose items correspond give the same verdict. -/
theorem firstMatch_forall₂ {related : Item → Other → Prop} {otherTest : Other → Bool}
    {otherVerdict : Other → Verdict} (same : ∀ item other, related item other →
      test item = otherTest other ∧ verdict item = otherVerdict other)
    {items : List Item} {others : List Other} (pairs : List.Forall₂ related items others) :
    firstMatch test verdict otherwise items =
      firstMatch otherTest otherVerdict otherwise others := by
  induction pairs with
  | nil => rfl
  | cons head tail ih =>
    obtain ⟨tests, verdicts⟩ := same _ _ head
    simp only [firstMatch, tests, verdicts, ih]

end A3Net.Machine
