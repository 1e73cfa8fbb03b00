import Mathlib.Algebra.GroupWithZero.Nat
import Mathlib.Data.List.AList

namespace A3Net

open List

/-- A table has one value for each of its keys. -/
abbrev Table (Key Value : Type*) := AList fun _ : Key => Value

namespace Table

variable {Key Value : Type*} [DecidableEq Key] (table : Table Key Value)

/-- The change reaches the value of a present key and no other value. -/
def modify (key : Key) (change : Value → Value) : Table Key Value :=
  match table.lookup key with
  | some value => table.insert key (change value)
  | none => table

/-- The table keeps the entries whose values pass a test. -/
def keep (test : Value → Bool) : Table Key Value where
  entries := table.entries.filter fun entry => test entry.2
  nodupKeys := table.nodupKeys.sublist List.filter_sublist

def values : List Value := table.entries.map Sigma.snd

def mapValues (change : Value → Value) : Table Key Value where
  entries := table.entries.map fun entry => ⟨entry.1, change entry.2⟩
  nodupKeys := by
    have keys : (table.entries.map fun entry =>
        (⟨entry.1, change entry.2⟩ : Sigma fun _ : Key => Value)).keys = table.entries.keys := by
      simp [List.keys, Function.comp_def]
    rw [List.NodupKeys, keys]
    exact table.nodupKeys

/-- The change of a value may depend on its key. -/
def mapEntries (change : Key → Value → Value) : Table Key Value where
  entries := table.entries.map fun entry => ⟨entry.1, change entry.1 entry.2⟩
  nodupKeys := by
    have keys : (table.entries.map fun entry =>
        (⟨entry.1, change entry.1 entry.2⟩ : Sigma fun _ : Key => Value)).keys =
          table.entries.keys := by
      simp [List.keys, Function.comp_def]
    rw [List.NodupKeys, keys]
    exact table.nodupKeys

theorem lookup_insert_eq {key other : Key} (value : Value) :
    (AList.insert key value table).lookup other =
      if other = key then some value else table.lookup other := by
  split
  · next same =>
    subst same
    exact AList.lookup_insert table
  · next ne => exact AList.lookup_insert_ne ne

theorem lookup_erase_eq (key other : Key) :
    (table.erase key).lookup other = if other = key then none else table.lookup other := by
  split
  · next same =>
    rw [same]
    exact AList.lookup_erase ..
  · next ne => exact AList.lookup_erase_ne ne

theorem lookup_eraseAll (keys : List Key) {other : Key} :
    (keys.foldl (fun table key => table.erase key) table).lookup other =
      if other ∈ keys then none else table.lookup other := by
  induction keys generalizing table with
  | nil => simp
  | cons key rest ih =>
    rw [foldl_cons, ih, lookup_erase_eq]
    by_cases same : other = key <;> simp [same]

theorem lookup_keep (test : Value → Bool) (key : Key) :
    (table.keep test).lookup key = (table.lookup key).filter test := by
  apply Option.ext
  intro value
  rw [Option.filter_eq_some_iff]
  exact Iff.trans AList.mem_lookup_iff (mem_filter.trans
    (and_congr_left fun _ => AList.mem_lookup_iff.symm))

theorem lookup_mapValues (key : Key) (change : Value → Value) :
    (table.mapValues change).lookup key = (table.lookup key).map change :=
  @dlookup_map₂ Key _ (fun _ => Value) (fun _ => Value) table.entries (fun _ => change) key

theorem lookup_mapEntries (key : Key) (change : Key → Value → Value) :
    (table.mapEntries change).lookup key = (table.lookup key).map (change key) :=
  @dlookup_map₂ Key _ (fun _ => Value) (fun _ => Value) table.entries change key

theorem lookup_modify (key other : Key) (change : Value → Value) :
    (table.modify key change).lookup other =
      if other = key then (table.lookup other).map change else table.lookup other := by
  unfold modify
  split
  · next value found =>
    rw [lookup_insert_eq]
    split
    · next same => rw [same, found, Option.map_some]
    · rfl
  · next missing =>
    split
    · next same => rw [same, missing, Option.map_none]
    · rfl

theorem mem_values_iff {value : Value} :
    value ∈ table.values ↔ ∃ key, table.lookup key = some value := by
  constructor
  · intro member
    obtain ⟨⟨key, stored⟩, inside, rfl⟩ := mem_map.mp member
    exact ⟨key, AList.mem_lookup_iff.mpr inside⟩
  · intro ⟨key, found⟩
    exact mem_map.mpr ⟨⟨key, value⟩, AList.mem_lookup_iff.mp found, rfl⟩

theorem eq_empty_of_lookup {table : Table Key Value} (absent : ∀ key, table.lookup key = none) :
    table = ∅ := by
  apply AList.ext
  apply eq_nil_iff_forall_not_mem.mpr
  rintro ⟨key, value⟩ member
  have found := AList.mem_lookup_iff.mpr member
  rw [absent] at found
  cases found

theorem mem_keys_of_lookup {table : Table Key Value} {key : Key} {value : Value}
    (found : table.lookup key = some value) : key ∈ table.keys :=
  AList.mem_keys.mp (AList.lookup_isSome.mp (Option.isSome_of_eq_some found))

end Table

/-- A hash map may be read in any order, and each reading has its own. -/
structure Reading (Item : Type*) where
  arrange : List Item → List Item
  perm : ∀ items, (arrange items).Perm items

/-- The items are read as they stand. -/
def Reading.plain (Item : Type*) : Reading Item := ⟨id, fun items => List.Perm.refl items⟩

/-- Each item is counted with its own key. -/
theorem sum_length_filter {Item Key : Type*} [DecidableEq Key] (keyOf : Item → Key)
    {keys : List Key} (nodup : keys.Nodup) {items : List Item}
    (covered : ∀ item ∈ items, keyOf item ∈ keys) :
    (keys.map fun key => (items.filter fun item => keyOf item = key).length).sum =
      items.length := by
  induction keys generalizing items with
  | nil =>
    have empty : items = [] := eq_nil_iff_forall_not_mem.mpr
      fun item member => not_mem_nil (covered item member)
    rw [empty]
    rfl
  | cons key keys ih =>
    obtain ⟨fresh, rest⟩ := nodup_cons.mp nodup
    have others :
        (keys.map fun other => (items.filter fun item => keyOf item = other).length).sum =
          (items.filter fun item => !decide (keyOf item = key)).length := by
      rw [← ih rest fun item member => ?_]
      · congr 1
        apply map_congr_left
        intro other member
        rw [filter_filter]
        congr 1
        apply filter_congr
        intro item _
        rw [Bool.eq_iff_iff]
        have ne : other ≠ key := fun same => fresh (same ▸ member)
        simp only [decide_eq_true_eq, Bool.and_eq_true, Bool.not_eq_true', decide_eq_false_iff_not]
        exact ⟨fun own => ⟨own, fun same => ne (own.symm.trans same)⟩, And.left⟩
      · obtain ⟨stored, ne⟩ := mem_filter.mp member
        have inside := covered item stored
        simp only [Bool.not_eq_true', decide_eq_false_iff_not] at ne
        exact (mem_cons.mp inside).resolve_left ne
    rw [map_cons, sum_cons, others]
    exact (length_eq_length_filter_add _).symm

end A3Net
