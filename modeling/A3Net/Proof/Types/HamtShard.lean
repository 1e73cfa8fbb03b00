import A3Net.Construction.Types.UnixFs

namespace A3Net.Hamt

open List

abbrev Entry := String × Cid × UInt64

def insertAll (node : UnixFsNode) (entries : List Entry) : Option UnixFsNode :=
  entries.foldlM (fun node (name, cid, size) => insert node name cid size) node

variable (links : List UnixFsLink) (index : Nat)

/-- A slot that is not there yet counts as a free one. -/
def held : UnixFsLink := links[index]?.getD (placeholder index)

theorem length_padded : (padded links index).length = max links.length (index + 1) := by
  simp only [padded, length_append, length_map, length_range']
  omega

variable {links index}

theorem getElem?_of_held (inside : index < links.length) :
    links[index]? = some (held links index) := by
  simp [held, inside]

theorem held_padded {slot : Nat} : held (padded links index) slot = held links slot := by
  unfold held padded
  rcases Nat.lt_or_ge slot links.length with old | new
  · rw [getElem?_append_left old]
  · rw [getElem?_append_right new, getElem?_eq_none new, getElem?_map]
    rcases Nat.lt_or_ge slot (index + 1) with pushed | beyond
    · rw [getElem?_range' (by omega)]
      simp [new]
    · rw [getElem?_eq_none (by simp; omega)]
      rfl

theorem held_set {slot : Nat} {link : UnixFsLink} (inside : index < links.length) :
    held (links.set index link) slot = if index = slot then link else held links slot := by
  unfold held
  rw [getElem?_set]
  split_ifs <;> rfl

variable {fanout bitsWidth : Option UInt64} {entries : List Entry}

/-- The last name of a bucket takes its slot. -/
def write (bitsWidth : Option UInt64) (slot : Nat) (link : UnixFsLink) (entry : Entry) :
    UnixFsLink :=
  if bucket bitsWidth entry.1 = slot then ⟨entry.1, entry.2.1, some entry.2.2⟩ else link

theorem write_elsewhere {slot : Nat} {link : UnixFsLink}
    (elsewhere : ∀ entry ∈ entries, bucket bitsWidth entry.1 ≠ slot) :
    entries.foldl (write bitsWidth slot) link = link := by
  induction entries with
  | nil => rfl
  | cons entry rest ih =>
    have ⟨first, others⟩ := forall_mem_cons.mp elsewhere
    rw [foldl_cons, write, if_neg first, ih others]

/-- Each insert writes one slot, and no slot is ever removed. -/
theorem insertAll_held : ∃ after,
    insertAll (.hamtShardedDirectory fanout bitsWidth links) entries =
      some (.hamtShardedDirectory fanout bitsWidth after) ∧ links.length ≤ after.length ∧
    (∀ entry ∈ entries, bucket bitsWidth entry.1 < after.length) ∧
    ∀ slot, held after slot = entries.foldl (write bitsWidth slot) (held links slot) := by
  induction entries generalizing links with
  | nil => exact ⟨links, rfl, le_rfl, by simp, fun _ => rfl⟩
  | cons entry rest ih =>
    obtain ⟨name, cid, size⟩ := entry
    have padding := length_padded links (bucket bitsWidth name)
    obtain ⟨after, run, longer, inside, slots⟩ := @ih ((padded links (bucket bitsWidth name)).set
      (bucket bitsWidth name) ⟨name, cid, some size⟩)
    rw [length_set, padding, Nat.max_le] at longer
    refine ⟨after, run, longer.1, forall_mem_cons.mpr ⟨longer.2, inside⟩, ?_⟩
    intro slot
    rw [slots, held_set (by omega), held_padded, foldl_cons, write]

/-- Of all the names of a bucket, a lookup finds the one inserted last and no other. -/
theorem find_insertAll {before after : List Entry} {last : Entry}
    (alone : ∀ entry ∈ after, bucket bitsWidth entry.1 ≠ bucket bitsWidth last.1) :
    ∃ shard, insertAll (.hamtShardedDirectory fanout bitsWidth links) (before ++ last :: after) =
        some shard ∧
      ∀ name, bucket bitsWidth name = bucket bitsWidth last.1 →
        find shard name =
          if name = last.1 then some ⟨name, last.2.1, some last.2.2⟩ else none := by
  obtain ⟨taken, run, -, inside, slots⟩ := insertAll_held
  refine ⟨_, run, ?_⟩
  intro name same
  have there := slots (bucket bitsWidth last.1)
  rw [foldl_append, foldl_cons, write, if_pos rfl, write_elsewhere alone] at there
  rw [find, same, getElem?_of_held (inside last (by simp)), there, Option.filter_some]
  by_cases named : name = last.1
  · simp [named]
  · simp [named, Ne.symm named]

/-- The names `c` and `E` share a bucket, and the second one takes the place of the first. -/
theorem find_replaced :
    let cid := Cid.fromContentBlake3 []
    ∃ shard, insertAll (newShard none none) [("c", cid, 1), ("E", cid, 2), ("a", cid, 3)] =
        some shard ∧
      find shard "E" = some ⟨"E", cid, some 2⟩ ∧ find shard "c" = none := by
  have apart : bucket (some 8) "a" ≠ bucket (some 8) "E" := by
    decide +kernel
  have shared : bucket (some 8) "c" = bucket (some 8) "E" := by
    decide +kernel
  intro cid
  obtain ⟨shard, run, found⟩ := @find_insertAll [] (some 256) (some 8) [("c", cid, 1)]
    [("a", cid, 3)] ("E", cid, 2) (by simpa using apart)
  exact ⟨shard, run, found "E" rfl, found "c" shared⟩

theorem placeholder_name (used : 0 < index) :
    (placeholder index).name ≠ "" ∧ (placeholder index).name ≠ "0" := by
  have digits : Nat.toDigits 16 index ≠ ['0'] := by
    rw [Nat.toDigits_eq_if (by decide)]
    split_ifs with small
    · have single : ∀ digit < 16, 0 < digit → [digit.digitChar] ≠ ['0'] := by decide
      exact single index small used
    · simp [append_eq_singleton_iff, Nat.toDigits_ne_nil]
  exact ⟨fun same => Nat.toDigits_ne_nil (String.ofList_injective same),
    fun same => digits (String.ofList_injective same)⟩

/-- A listing shows a link that was never inserted for each free slot below a taken one. -/
theorem placeholder_mem_iter {entry : Entry} (member : entry ∈ entries) (used : 0 < index)
    (new : links.length ≤ index) (below : index < bucket bitsWidth entry.1)
    (free : ∀ entry ∈ entries, bucket bitsWidth entry.1 ≠ index) :
    ∃ shard, insertAll (.hamtShardedDirectory fanout bitsWidth links) entries = some shard ∧
      placeholder index ∈ iter shard := by
  obtain ⟨after, run, -, inside, slots⟩ := insertAll_held
  refine ⟨_, run, mem_filter.mpr ⟨?_, by simpa using placeholder_name used⟩⟩
  have there := slots index
  rw [write_elsewhere free] at there
  apply mem_of_getElem?
  rw [getElem?_of_held (Nat.lt_trans below (inside entry member)), there, held,
    getElem?_eq_none new, Option.getD_none]

theorem placeholder_listed :
    ∃ shard, insertAll (newShard none none) [("c", .fromContentBlake3 [], 1)] = some shard ∧
      placeholder 1 ∈ iter shard := by
  have below : 1 < bucket (some defaultBitsWidth) "c" := by
    decide +kernel
  exact placeholder_mem_iter (mem_singleton_self _) (by decide) (by simp) below
    (by simpa using Nat.ne_of_gt below)

end A3Net.Hamt
