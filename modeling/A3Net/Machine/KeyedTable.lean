import A3Net.Machine.Table

namespace A3Net

/-- Each value stands under its own key. -/
structure KeyedTable {Key Value : Type*} [DecidableEq Key] (keyOf : Value → Key) where
  table : Table Key Value
  keyed : ∀ key value, table.lookup key = some value → keyOf value = key

namespace KeyedTable

variable {Key Value : Type*} [DecidableEq Key] {keyOf : Value → Key}

def empty : KeyedTable keyOf := ⟨∅, fun _ _ found => by cases found⟩

variable (table : KeyedTable keyOf)

def lookup (key : Key) : Option Value := table.table.lookup key

/-- A value of the same key is replaced. -/
def insert (value : Value) : KeyedTable keyOf where
  table := table.table.insert (keyOf value) value
  keyed key other found := by
    rw [Table.lookup_insert_eq] at found
    split at found
    · next same => rw [same, Option.some.inj found]
    · exact table.keyed key other found

def erase (key : Key) : KeyedTable keyOf where
  table := table.table.erase key
  keyed other value found := by
    rw [Table.lookup_erase_eq] at found
    split at found
    · cases found
    · exact table.keyed other value found

/-- The table keeps the values that pass a test. -/
def keep (test : Value → Bool) : KeyedTable keyOf where
  table := table.table.keep test
  keyed key value found := by
    rw [Table.lookup_keep, Option.filter_eq_some_iff] at found
    exact table.keyed key value found.1

def values : List Value := table.table.values

variable (table : KeyedTable keyOf)

theorem lookup_insert (value : Value) (key : Key) :
    (table.insert value).lookup key = if key = keyOf value then some value else table.lookup key :=
  Table.lookup_insert_eq ..

theorem lookup_erase (key other : Key) :
    (table.erase other).lookup key = if key = other then none else table.lookup key :=
  Table.lookup_erase_eq ..

theorem lookup_keep (test : Value → Bool) (key : Key) :
    (table.keep test).lookup key = (table.lookup key).filter test :=
  Table.lookup_keep ..

theorem lookup_iff {key : Key} {value : Value} :
    table.lookup key = some value ↔ value ∈ table.values ∧ keyOf value = key := by
  constructor
  · intro found
    have stored : value ∈ table.values :=
      List.mem_map.mpr ⟨⟨key, value⟩, AList.mem_lookup_iff.mp found, rfl⟩
    exact ⟨stored, table.keyed key value found⟩
  · rintro ⟨member, own⟩
    obtain ⟨⟨other, stored⟩, inside, rfl⟩ := List.mem_map.mp member
    have found : table.lookup other = some stored := AList.mem_lookup_iff.mpr inside
    rw [← own, table.keyed other stored found]
    exact found

/-- The values have different keys. -/
theorem values_keys_nodup : (table.values.map keyOf).Nodup := by
  have own : table.values.map keyOf = table.table.keys := by
    rw [values, Table.values, List.map_map]
    apply List.map_congr_left
    rintro ⟨key, value⟩ member
    exact table.keyed key value (AList.mem_lookup_iff.mpr member)
  rw [own]
  exact table.table.keys_nodup

end KeyedTable
end A3Net
