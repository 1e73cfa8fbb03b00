import Mathlib.Data.List.FinRange

namespace A3Net.Machine

open List

variable {Key : Type*} {count : Nat}

/-- The buckets are read one after the other. -/
def allKeys (keys : Fin count → List Key) : List Key := (finRange count).flatMap keys

/-- Each key stands once, in the bucket that it selects. -/
structure Filed (place : Key → Fin count) (keys : Fin count → List Key) : Prop where
  placed : ∀ index, ∀ key ∈ keys index, place key = index
  once : (allKeys keys).Nodup

variable {place : Key → Fin count} {keys others : Fin count → List Key}

theorem mem_allKeys {key : Key} : key ∈ allKeys keys ↔ ∃ index, key ∈ keys index := by
  simp [allKeys]

theorem Filed.bucket_nodup (filed : Filed place keys) {index : Fin count} : (keys index).Nodup :=
  (nodup_flatMap.mp filed.once).1 index (mem_finRange index)

/-- Buckets that select different keys need no comparison with each other. -/
theorem filed_of_nodup (placed : ∀ index, ∀ key ∈ keys index, place key = index)
    (nodup : ∀ index, (keys index).Nodup) : Filed place keys := by
  refine ⟨placed, nodup_flatMap.mpr ⟨fun index _ => nodup index, ?_⟩⟩
  apply (nodup_finRange count).imp
  intro first second ne key inFirst inSecond
  exact ne ((placed first key inFirst).symm.trans (placed second key inSecond))

/-- Keys may move inside their bucket or leave it. -/
theorem Filed.subperm (filed : Filed place keys)
    (fewer : ∀ index, (others index).Subperm (keys index)) : Filed place others := by
  apply filed_of_nodup
  · exact fun index key member => filed.placed index key ((fewer index).subset member)
  · intro index
    obtain ⟨list, same, sublist⟩ := fewer index
    exact same.nodup_iff.mp ((filed.bucket_nodup).sublist sublist)

/-- A new key goes into the bucket that it selects. -/
theorem Filed.insert (filed : Filed place keys) {key : Key} (fresh : key ∉ keys (place key))
    (at_place : others (place key) = keys (place key) ++ [key])
    (elsewhere : ∀ index, index ≠ place key → others index = keys index) :
    Filed place others := by
  apply filed_of_nodup
  · intro index entry member
    by_cases same : index = place key
    · subst same
      rw [at_place, mem_append, mem_singleton] at member
      rcases member with old | rfl
      · exact filed.placed _ entry old
      · rfl
    · rw [elsewhere index same] at member
      exact filed.placed index entry member
  · intro index
    by_cases same : index = place key
    · subst same
      rw [at_place]
      exact (filed.bucket_nodup).append (nodup_singleton key) (disjoint_singleton.mpr fresh)
    · rw [elsewhere index same]
      exact filed.bucket_nodup

end A3Net.Machine
