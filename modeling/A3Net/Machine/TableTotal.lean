import A3Net.Machine.Table
import Mathlib.Algebra.Order.BigOperators.Group.List
import Mathlib.Algebra.Order.Ring.Nat

namespace A3Net.Table

variable {Key Value : Type*} (table : Table Key Value)

/-- The sizes of all entries are added. -/
def total (size : Key → Value → Nat) : Nat :=
  (table.entries.map fun entry => size entry.1 entry.2).sum

theorem total_mapEntries (change : Key → Value → Value)
    (size : Key → Value → Nat) :
    (table.mapEntries change).total size =
      table.total fun key value => size key (change key value) := by
  rw [total, total, mapEntries, List.map_map]
  rfl

variable [DecidableEq Key]

theorem total_congr {first second : Table Key Value} (size : Key → Value → Nat)
    (same : ∀ key, first.lookup key = second.lookup key) :
    first.total size = second.total size := by
  have perm : first.entries.Perm second.entries := by
    apply List.lookup_ext first.nodupKeys second.nodupKeys
    intro key value
    rw [show first.entries.dlookup key = second.entries.dlookup key from same key]
  exact (perm.map _).sum_eq

end A3Net.Table
