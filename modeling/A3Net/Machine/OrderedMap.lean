/-
The entries may be trees that have ordered maps inside, so the order is a predicate of its own.
-/

import Mathlib.Data.List.Basic
import Mathlib.Order.Lattice

namespace A3Net.Machine.OrderedMap

open List

variable {Key Value : Type*}

/-- The keys increase strictly. -/
def Sorted [LT Key] (entries : List (Key × Value)) : Prop :=
  entries.Pairwise fun first second => first.1 < second.1

section Get

variable [DecidableEq Key]

def get (key : Key) : List (Key × Value) → Option Value
  | [] => none
  | (other, value) :: rest => if other = key then some value else get key rest

/-- A key that is there gets another value. -/
def set (key : Key) (value : Value) : List (Key × Value) → List (Key × Value)
  | [] => []
  | (other, old) :: rest =>
    if other = key then (other, value) :: rest else (other, old) :: set key value rest

def remove (key : Key) (entries : List (Key × Value)) : List (Key × Value) :=
  entries.filter fun entry => entry.1 ≠ key

theorem get_set (key other : Key) (value : Value) (entries : List (Key × Value)) :
    get other (set key value entries) =
      if other = key then (get key entries).map fun _ => value else get other entries := by
  induction entries with
  | nil => simp [get, set]
  | cons entry rest ih =>
    obtain ⟨first, old⟩ := entry
    simp only [set]
    split
    · next same =>
      subst same
      by_cases equal : other = first
      · simp [get, equal]
      · simp [get, equal, Ne.symm equal]
    · next ne =>
      simp only [get, ih]
      by_cases equal : other = key
      · simp [equal, ne]
      · simp [equal]

variable {entries : List (Key × Value)} {key : Key} {value : Value}

/-- The same value again changes nothing. -/
theorem set_get (found : get key entries = some value) : set key value entries = entries := by
  induction entries with
  | nil => rfl
  | cons entry rest ih =>
    simp only [get] at found
    simp only [set]
    split at found
    · next same =>
      cases found
      rw [if_pos same]
    · next ne => rw [if_neg ne, ih found]

theorem get_remove (key other : Key) (entries : List (Key × Value)) :
    get other (remove key entries) = if other = key then none else get other entries := by
  induction entries with
  | nil => simp [get, remove]
  | cons entry rest ih =>
    obtain ⟨first, old⟩ := entry
    by_cases same : first = key
    · subst same
      have shrink : remove first ((first, old) :: rest) = remove first rest := by
        simp [remove]
      rw [shrink, ih]
      by_cases equal : other = first
      · rw [if_pos equal, if_pos equal]
      · simp [get, equal, Ne.symm equal]
    · have keep : remove key ((first, old) :: rest) = (first, old) :: remove key rest := by
        simp [remove, same]
      rw [keep]
      simp only [get, ih]
      by_cases equal : first = other
      · subst equal
        simp [same]
      · simp [equal]

theorem get_mem (found : get key entries = some value) : (key, value) ∈ entries := by
  induction entries with
  | nil => cases found
  | cons entry rest ih =>
    obtain ⟨first, old⟩ := entry
    simp only [get] at found
    split at found
    · next same =>
      cases found
      rw [same]
      exact mem_cons_self
    · exact mem_cons_of_mem _ (ih found)

variable {entry : Key × Value}

theorem mem_set (member : entry ∈ set key value entries) : entry ∈ entries ∨ entry.2 = value := by
  induction entries with
  | nil => exact Or.inl member
  | cons head rest ih =>
    simp only [set] at member
    split at member
    · rcases mem_cons.mp member with rfl | later
      · exact Or.inr rfl
      · exact Or.inl (mem_cons_of_mem _ later)
    · rcases mem_cons.mp member with rfl | later
      · exact Or.inl mem_cons_self
      · exact (ih later).imp_left (mem_cons_of_mem _)

theorem set_keys : (set key value entries).map Prod.fst = entries.map Prod.fst := by
  induction entries with
  | nil => rfl
  | cons entry rest ih =>
    simp only [set]
    split <;> simp [ih]

theorem remove_of_absent (absent : get key entries = none) : remove key entries = entries := by
  induction entries with
  | nil => rfl
  | cons entry rest ih =>
    simp only [get] at absent
    split at absent
    · cases absent
    · next ne =>
      have tail := ih absent
      unfold remove at tail ⊢
      rw [filter_cons_of_pos (by simpa using ne), tail]

end Get

section Order

variable [LinearOrder Key]

/-- A new key goes before the first greater one, and an old key gets the value. -/
def insert (key : Key) (value : Value) : List (Key × Value) → List (Key × Value)
  | [] => [(key, value)]
  | (other, old) :: rest =>
    if key < other then (key, value) :: (other, old) :: rest
    else if key = other then (key, value) :: rest
    else (other, old) :: insert key value rest

variable {entries : List (Key × Value)} {key : Key} {value : Value}

theorem mem_insert {entry : Key × Value} (member : entry ∈ insert key value entries) :
    entry ∈ entries ∨ entry = (key, value) := by
  induction entries with
  | nil => exact Or.inr (mem_singleton.mp member)
  | cons head rest ih =>
    simp only [insert] at member
    split_ifs at member
    · exact (mem_cons.mp member).symm
    · exact (mem_cons.mp member).symm.imp_left (mem_cons_of_mem _)
    · rcases mem_cons.mp member with rfl | later
      · exact Or.inl mem_cons_self
      · exact (ih later).imp_left (mem_cons_of_mem _)

theorem get_insert (key other : Key) (value : Value) (entries : List (Key × Value)) :
    get other (insert key value entries) =
      if other = key then some value else get other entries := by
  induction entries with
  | nil =>
    by_cases same : other = key
    · simp [insert, get, same]
    · simp [insert, get, same, Ne.symm same]
  | cons entry rest ih =>
    simp only [insert]
    by_cases same : other = key
    · subst same
      rw [if_pos rfl]
      split_ifs with less equal
      · simp [get]
      · simp [get]
      · simp [get, ih, Ne.symm equal]
    · split_ifs with less equal
      · simp [get, Ne.symm same]
      · simp [get, ← equal, Ne.symm same]
      · simp [get, ih, same]

theorem insert_insert (key : Key) (first second : Value) (entries : List (Key × Value)) :
    insert key second (insert key first entries) = insert key second entries := by
  induction entries with
  | nil => simp [insert]
  | cons entry rest ih =>
    simp only [insert]
    split_ifs with less equal
    · simp [insert]
    · simp [insert]
    · simp [insert, less, equal, ih]

theorem get_of_lt (less : ∀ entry ∈ entries, key < entry.1) : get key entries = none := by
  cases found : get key entries with
  | none => rfl
  | some value => exact absurd (less _ (get_mem found)) (lt_irrefl key)

theorem Sorted.set (sorted : Sorted entries) (key : Key) (value : Value) :
    Sorted (set key value entries) := by
  have keys : (entries.map Prod.fst).Pairwise (· < ·) := pairwise_map.mpr sorted
  rw [← set_keys] at keys
  exact pairwise_map.mp keys

theorem Sorted.remove (sorted : Sorted entries) (key : Key) : Sorted (remove key entries) :=
  List.Pairwise.filter _ sorted

theorem Sorted.insert (sorted : Sorted entries) (key : Key) (value : Value) :
    Sorted (insert key value entries) := by
  induction entries with
  | nil => exact pairwise_singleton _ _
  | cons entry rest ih =>
    obtain ⟨later, tail⟩ := pairwise_cons.mp sorted
    simp only [OrderedMap.insert]
    split_ifs with less same
    · exact pairwise_cons.mpr ⟨forall_mem_cons.mpr
        ⟨less, fun entry member => lt_trans less (later entry member)⟩, sorted⟩
    · subst same
      exact pairwise_cons.mpr ⟨later, tail⟩
    · apply pairwise_cons.mpr ⟨?_, ih tail⟩
      intro entry member
      rcases mem_insert member with member | rfl
      · exact later entry member
      · exact lt_of_le_of_ne (not_lt.mp less) (Ne.symm same)

theorem insert_of_lt (less : ∀ entry ∈ entries, key < entry.1) :
    insert key value entries = (key, value) :: entries := by
  cases entries with
  | nil => rfl
  | cons entry rest => exact if_pos (less entry mem_cons_self)

theorem remove_of_lt (less : ∀ entry ∈ entries, key < entry.1) : remove key entries = entries := by
  apply filter_eq_self.mpr
  intro entry member
  exact decide_eq_true (ne_of_gt (less entry member))

/-- A sorted map has one place for a key, so an entry that is taken out fits back there. -/
theorem insert_remove (sorted : Sorted entries) (found : get key entries = some value) :
    insert key value (remove key entries) = entries := by
  induction entries with
  | nil => cases found
  | cons entry rest ih =>
    obtain ⟨first, old⟩ := entry
    obtain ⟨later, tail⟩ := pairwise_cons.mp sorted
    by_cases same : first = key
    · subst same
      have shrink : remove first ((first, old) :: rest) = rest := by
        simpa [remove] using remove_of_lt later
      have value_eq : old = value := by simpa [get] using found
      rw [shrink, insert_of_lt later, value_eq]
    · have inside : get key rest = some value := by simpa [get, same] using found
      have less : first < key := later _ (get_mem inside)
      have keep : remove key ((first, old) :: rest) = (first, old) :: remove key rest := by
        simp [remove, same]
      rw [keep, OrderedMap.insert, if_neg (not_lt.mpr (le_of_lt less)), if_neg (Ne.symm same),
        ih tail inside]

theorem length_insert_of_absent (absent : ∀ entry ∈ entries, key ≠ entry.1) :
    (insert key value entries).length = entries.length + 1 := by
  induction entries with
  | nil => rfl
  | cons entry rest ih =>
    obtain ⟨first, old⟩ := entry
    simp only [OrderedMap.insert]
    split_ifs with less same
    · rfl
    · exact absurd same (absent (first, old) mem_cons_self)
    · simp [ih (forall_mem_cons.mp absent).2]

/-- One entry goes. -/
theorem length_remove (sorted : Sorted entries) (found : get key entries = some value) :
    (remove key entries).length + 1 = entries.length := by
  have absent : ∀ entry ∈ remove key entries, key ≠ entry.1 := by
    intro entry member
    have kept := (mem_filter.mp member).2
    exact Ne.symm (of_decide_eq_true kept)
  rw [← length_insert_of_absent absent, insert_remove sorted found]

theorem Sorted.get_of_lt_head {head : Key} {rest : List (Key × Value)}
    (sorted : Sorted ((head, value) :: rest)) (less : key < head) :
    get key ((head, value) :: rest) = none := by
  exact get_of_lt (forall_mem_cons.mpr ⟨less, fun entry member =>
    lt_trans less ((pairwise_cons.mp sorted).1 entry member)⟩)

/-- A sorted map is known by its lookups. -/
theorem Sorted.eq_of_get {first second : List (Key × Value)} (firstSorted : Sorted first)
    (secondSorted : Sorted second) (same : ∀ key, get key first = get key second) :
    first = second := by
  induction first generalizing second with
  | nil =>
    cases second with
    | nil => rfl
    | cons entry rest =>
      have found := same entry.1
      simp [get] at found
  | cons entry rest ih =>
    obtain ⟨key, value⟩ := entry
    obtain ⟨later, tail⟩ := pairwise_cons.mp firstSorted
    cases second with
    | nil =>
      have found := same key
      simp [get] at found
    | cons entry others =>
      obtain ⟨key', value'⟩ := entry
      obtain ⟨later', tail'⟩ := pairwise_cons.mp secondSorted
      have keys : key = key' := by
        rcases lt_trichotomy key key' with less | equal | greater
        · have found := same key
          rw [secondSorted.get_of_lt_head less] at found
          simp [get] at found
        · exact equal
        · have found := same key'
          rw [firstSorted.get_of_lt_head greater] at found
          simp [get] at found
      subst keys
      have values : value = value' := by simpa [get] using same key
      subst values
      have tails : ∀ other, get other rest = get other others := by
        intro other
        by_cases equal : key = other
        · subst equal
          rw [get_of_lt later, get_of_lt later']
        · simpa [get, equal] using same other
      rw [ih tail tail' tails]

end Order

section Numbered

/-- The values get numbers one after the other. -/
def numbered : Nat → List Value → List (Nat × Value)
  | _, [] => []
  | first, value :: rest => (first, value) :: numbered (first + 1) rest

variable (first : Nat) {values : List Value}

theorem numbered_le : ∀ entry ∈ numbered first values, first ≤ entry.1 := by
  induction values generalizing first with
  | nil => simp [numbered]
  | cons value rest ih =>
    exact forall_mem_cons.mpr ⟨Nat.le_refl first, fun entry later =>
      (Nat.le_succ first).trans (ih (first + 1) entry later)⟩

theorem numbered_sorted : Sorted (numbered first values) := by
  induction values generalizing first with
  | nil => exact List.Pairwise.nil
  | cons value rest ih =>
    apply pairwise_cons.mpr ⟨?_, ih (first + 1)⟩
    intro entry member
    exact numbered_le (first + 1) entry member

theorem numbered_values : (numbered first values).map Prod.snd = values := by
  induction values generalizing first with
  | nil => rfl
  | cons value rest ih => simp [numbered, ih]

theorem get_numbered (index : Nat) (values : List Value) :
    get (first + index) (numbered first values) = values[index]? := by
  induction values generalizing first index with
  | nil => rfl
  | cons value rest ih =>
    cases index with
    | zero => simp [numbered, get]
    | succ index =>
      have moved := ih (first + 1) index
      rw [Nat.add_right_comm, Nat.add_assoc] at moved
      simpa [numbered, get] using moved

/-- A sorted map that numbers its values from zero lists them in order. -/
theorem Sorted.values_eq {entries : List (Nat × Value)} (sorted : Sorted entries)
    (same : ∀ index, get index entries = values[index]?) : entries.map Prod.snd = values := by
  have equal : entries = numbered 0 values := by
    apply sorted.eq_of_get (numbered_sorted 0)
    intro index
    rw [same, ← get_numbered 0 index values, Nat.zero_add]
  rw [equal, numbered_values]

end Numbered
end A3Net.Machine.OrderedMap
