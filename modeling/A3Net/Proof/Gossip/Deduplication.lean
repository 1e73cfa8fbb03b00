/-
The age of an identifier counts the announcements that were accepted after its last acceptance.
-/

import A3Net.Construction.Gossip.Dedup
import A3Net.Machine.Run

namespace A3Net.Gossip

open Machine List MessageCache DedupeFilter Nat

/-- The queue holds exactly the identifiers of the table, each once, and not too many of them. -/
structure MessageCache.Consistent (capacity : Nat) (cache : MessageCache) : Prop where
  nodup : cache.order.Nodup
  keys : ∀ id, id ∈ cache.order ↔ id ∈ cache.entries
  bounded : cache.order.length ≤ capacity

/-- Between two successive acceptances of one identifier, the first lifetime has passed or so many
other announcements were accepted. -/
def Deduplicated (capacity : Nat) (accepted : List Acceptance) : Prop :=
  ∀ later again between first earlier,
    accepted = later ++ again :: (between ++ first :: earlier) → first.id = again.id →
    (∀ other ∈ between, other.id ≠ again.id) →
      first.seen + first.ttl ≤ again.seen ∨ capacity ≤ between.length

structure Feed.Sound (capacity : Nat) (feed : Feed) : Prop where
  consistent : feed.filter.cache.Consistent capacity
  deduplicated : Deduplicated capacity feed.accepted

/-- A new announcement that finds the cache full has a lifetime that ends at an instant. -/
def Feed.Admissible (limit : Nat) (feed : Feed) (call : Call) : Prop :=
  ∀ id ∈ call.announcement.getOrGenerateMessageId,
    feed.filter.cache.contains id ∨ feed.filter.cache.len < feed.filter.cache.capacity ∨
      call.readings.seen + call.announcement.effectiveTtl < limit
deriving Decidable

variable (accepted : List Acceptance)

def latest (id : String) : Option Acceptance :=
  accepted.find? fun acceptance => acceptance.id = id

def age (id : String) : Nat :=
  accepted.findIdx fun acceptance => acceptance.id = id

variable (newest : Acceptance) (accepted : List Acceptance) (id : String)

theorem latest_cons :
    latest (newest :: accepted) id =
      if newest.id = id then some newest else latest accepted id := by
  simp only [latest, find?_cons]
  by_cases same : newest.id = id <;> simp [same]

theorem age_cons :
    age (newest :: accepted) id = if newest.id = id then 0 else age accepted id + 1 := by
  simp only [age, findIdx_cons]
  by_cases same : newest.id = id <;> simp [same]

variable {between earlier : List Acceptance} {first : Acceptance}

theorem latest_append (others : ∀ other ∈ between, other.id ≠ first.id) :
    latest (between ++ first :: earlier) first.id = some first := by
  induction between with
  | nil => simp [latest_cons]
  | cons newest between ih =>
    rw [cons_append, latest_cons, if_neg (others newest mem_cons_self)]
    exact ih (forall_mem_cons.mp others).2

theorem age_append (others : ∀ other ∈ between, other.id ≠ first.id) :
    age (between ++ first :: earlier) first.id = between.length := by
  induction between with
  | nil => simp [age_cons]
  | cons newest between ih =>
    rw [cons_append, age_cons, if_neg (others newest mem_cons_self), length_cons,
      ih (forall_mem_cons.mp others).2]

/-- The last acceptance of the identifier has run out, or the identifier has become that old. The
slack counts announcements that are about to be accepted. -/
def Forgettable (capacity slack now : Nat) (accepted : List Acceptance) (id : String) : Prop :=
  ∀ first, latest accepted id = some first →
    first.seen + first.ttl ≤ now ∨ capacity ≤ age accepted id + slack

variable {capacity : Nat} {cache : MessageCache} {more : Nat}

theorem Forgettable.mono {slack now later : Nat} {accepted : List Acceptance} {id : String}
    (forgettable : Forgettable capacity slack now accepted id) (weaker : slack ≤ more)
    (after : now ≤ later) : Forgettable capacity more later accepted id := by
  intro first found
  have := forgettable first found
  omega

theorem Deduplicated.cons {accepted : List Acceptance} {newest : Acceptance}
    (deduplicated : Deduplicated capacity accepted)
    (forgettable : Forgettable capacity 0 newest.seen accepted newest.id) :
    Deduplicated capacity (newest :: accepted) := by
  intro later again between first earlier split same others
  cases later with
  | nil =>
    obtain ⟨rfl, rfl⟩ := List.cons.inj split
    rw [← same] at others forgettable
    have old := forgettable first (latest_append others)
    rw [age_append others] at old
    exact old
  | cons head later =>
    obtain ⟨-, rfl⟩ := List.cons.inj split
    exact deduplicated later again between first earlier rfl same others

/-- The cache knows the last acceptance of each of its identifiers, it keeps them in the order of
these acceptances, and it has dropped no other identifier too early. -/
structure Tracks (capacity slack now : Nat) (accepted : List Acceptance) (cache : MessageCache) :
    Prop extends cache.Consistent capacity where
  sized : cache.capacity = capacity
  recorded : ∀ id ∈ cache.order, ∃ first, latest accepted id = some first ∧
    cache.entries.lookup id = some ⟨first.seen, first.seen + first.ttl⟩
  aged : cache.order.Pairwise fun older newer => age accepted newer < age accepted older
  forgotten : ∀ id ∉ cache.order, Forgettable capacity slack now accepted id

section

variable (consistent : cache.Consistent capacity)
include consistent

theorem MessageCache.Consistent.len_eq : cache.len = cache.order.length := by
  have same : cache.entries.keys.Perm cache.order := by
    apply (perm_ext_iff_of_nodup cache.entries.keys_nodup consistent.nodup).mpr
    intro id
    rw [consistent.keys, AList.mem_keys]
  exact same.length_eq

theorem MessageCache.Consistent.lookup_eq_none
    {id : String} (absent : id ∉ cache.order) : cache.entries.lookup id = none :=
  AList.lookup_eq_none.mpr fun member => absent ((consistent.keys id).mpr member)

theorem MessageCache.Consistent.contains_iff (id : String) :
    cache.contains id = true ↔ id ∈ cache.order := by
  rw [contains, AList.lookup_isSome, consistent.keys]

end

/-- The cache with one more identifier at the end of its queue. -/
def MessageCache.push (cache : MessageCache) (id : String) (seen ttl : Nat) : MessageCache :=
  { cache with
    entries := cache.entries.insert id ⟨seen, seen + ttl⟩
    order := cache.order ++ [id] }

@[simp] theorem MessageCache.push_order (cache : MessageCache) (id : String) (seen ttl : Nat) :
    (cache.push id seen ttl).order = cache.order ++ [id] := rfl

@[simp] theorem MessageCache.push_entries (cache : MessageCache) (id : String) (seen ttl : Nat) :
    (cache.push id seen ttl).entries = cache.entries.insert id ⟨seen, seen + ttl⟩ := rfl

theorem MessageCache.evictOldest_sublist (capacity : Nat) (entries : Table String MessageMeta)
    (order : List String) : (evictOldest capacity entries order).2.Sublist order := by
  induction order generalizing entries with
  | nil => exact List.Sublist.refl []
  | cons oldest rest ih =>
    rw [evictOldest]
    split
    · exact (ih _).trans (sublist_cons_self oldest rest)
    · exact List.Sublist.refl _

variable {entries : Table String MessageMeta}

theorem MessageCache.evictOldest_of_room (room : entries.keys.length < capacity)
    (order : List String) : evictOldest capacity entries order = (entries, order) := by
  cases order with
  | nil => rfl
  | cons oldest rest => rw [evictOldest, if_neg (not_le.mpr room)]

variable (readings : Readings)

theorem Readings.seen_le_finish : readings.seen ≤ readings.finish :=
  (readings.seen_le "").trans (readings.resweep_le "")

namespace Tracks

variable {slack now : Nat} {accepted} {clock : String → Nat} {later : Nat} {order : List String}

section

variable (tracks : Tracks capacity slack now accepted cache)
include tracks

/-- The cache may drop identifiers that are forgettable. -/
theorem shrink (fewer : order.Sublist cache.order)
    (read : ∀ id, entries.lookup id = if id ∈ order then cache.entries.lookup id else none)
    (weaker : slack ≤ more) (after : now ≤ later)
    (dropped : ∀ id ∈ cache.order, id ∉ order → Forgettable capacity more later accepted id) :
    Tracks capacity more later accepted { cache with entries := entries, order := order } where
  nodup := tracks.nodup.sublist fewer
  keys id := by
    rw [← AList.lookup_isSome, read]
    by_cases member : id ∈ order
    · simpa [member, AList.lookup_isSome] using (tracks.keys id).mp (fewer.subset member)
    · simp [member]
  bounded := fewer.length_le.trans tracks.bounded
  sized := tracks.sized
  recorded id member := by
    rw [read, if_pos member]
    exact tracks.recorded id (fewer.subset member)
  aged := tracks.aged.sublist fewer
  forgotten id absent := by
    by_cases held : id ∈ cache.order
    · exact dropped id held absent
    · exact (tracks.forgotten id held).mono weaker after

theorem mono (weaker : slack ≤ more) (after : now ≤ later) :
    Tracks capacity more later accepted cache :=
  { tracks with forgotten := fun id absent => (tracks.forgotten id absent).mono weaker after }

theorem removeExpired (after : ∀ id, now ≤ clock id) (before : ∀ id, clock id ≤ later) :
    Tracks capacity slack later accepted (cache.removeExpired clock) := by
  refine tracks.shrink filter_sublist ?_ (le_refl slack) ((after "").trans (before "")) ?_
  · intro id
    rw [Table.lookup_eraseAll]
    by_cases held : id ∈ cache.order
    · by_cases gone : id ∈ cache.expired clock <;> simp [held, gone]
    · simp [held, tracks.lookup_eq_none held]
  · intro id held absent first found
    have gone : id ∈ cache.expired clock := by simpa [held] using absent
    have passes := (mem_filter.mp (mem_of_mem_take gone)).2
    obtain ⟨recorded, foundAlso, entry⟩ := tracks.recorded id held
    obtain rfl := Option.some.inj (found.symm.trans foundAlso)
    have bound := before id
    rw [entry] at passes
    simp only [MessageMeta.isExpired, Option.map_some, Option.getD_some, decide_eq_true_eq]
      at passes
    omega

end

/-- Ages fall along the queue, so the oldest identifier is at least as old as the queue is long. -/
theorem length_le_age {oldest : String} {rest : List String}
    (aged : (oldest :: rest).Pairwise fun older newer => age accepted newer < age accepted older) :
    rest.length ≤ age accepted oldest := by
  induction rest generalizing oldest with
  | nil => exact zero_le _
  | cons next rest ih =>
    obtain ⟨younger, rest_aged⟩ := pairwise_cons.mp aged
    have := ih rest_aged
    have := younger next mem_cons_self
    rw [length_cons]
    omega

/-- The loop ends with room for one more identifier, and each identifier that it drops reaches the
full age with the next acceptance. -/
theorem evictOldest (positive : 0 < capacity)
    (tracks : Tracks capacity 1 now accepted ⟨entries, order, capacity⟩) :
    Tracks capacity 1 now accepted ⟨(MessageCache.evictOldest capacity entries order).1,
        (MessageCache.evictOldest capacity entries order).2, capacity⟩ ∧
      (MessageCache.evictOldest capacity entries order).2.length < capacity := by
  induction order generalizing entries with
  | nil => exact ⟨tracks, positive⟩
  | cons oldest rest ih =>
    have len_eq : entries.keys.length = rest.length + 1 := tracks.len_eq
    rw [MessageCache.evictOldest]
    by_cases full : capacity ≤ entries.keys.length
    · rw [if_pos full]
      apply ih
      refine tracks.shrink (sublist_cons_self oldest rest) ?_ (le_refl 1) (le_refl now) ?_
      · intro id
        have fresh := (nodup_cons.mp tracks.nodup).1
        by_cases same : id = oldest
        · subst same
          rw [AList.lookup_erase, if_neg fresh]
        · rw [AList.lookup_erase_ne same]
          split
          · rfl
          · next absent => exact tracks.lookup_eq_none (by simp [same, absent])
      · intro id held absent first found
        obtain rfl : id = oldest := (mem_cons.mp held).resolve_right absent
        have := length_le_age tracks.aged
        omega
    · rw [if_neg full]
      refine ⟨tracks, ?_⟩
      rw [length_cons]
      omega

section

variable (tracks : Tracks capacity 0 now accepted cache) (after : ∀ id, now ≤ clock id)
  (before : ∀ id, clock id ≤ later)
include tracks after before

theorem evictIfNeeded (positive : 0 < capacity) :
    Tracks capacity 1 later accepted (cache.evictIfNeeded clock) ∧
      (cache.evictIfNeeded clock).order.length < capacity := by
  have swept := (tracks.removeExpired after before).mono (zero_le 1) (le_refl later)
  obtain rfl := swept.sized
  exact evictOldest positive swept

/-- A cache with room evicts nothing. -/
theorem evictIfNeeded_of_room (room : cache.order.length < capacity) :
    Tracks capacity 0 later accepted (cache.evictIfNeeded clock) := by
  have swept := tracks.removeExpired after before
  have shorter : (cache.removeExpired clock).len < (cache.removeExpired clock).capacity := by
    rw [swept.len_eq, swept.sized]
    exact (length_filter_le _ _).trans_lt room
  rw [MessageCache.evictIfNeeded, evictOldest_of_room shorter]
  exact swept

end

/-- The acceptance of a new identifier makes every other identifier older. -/
theorem push (tracks : Tracks capacity 1 now accepted cache) {id : String} {seen ttl : Nat}
    (fresh : id ∉ cache.order) (room : cache.order.length < capacity) :
    Tracks capacity 0 now (⟨id, seen, ttl⟩ :: accepted) (cache.push id seen ttl) := by
  have other_of_mem : ∀ other ∈ cache.order, id ≠ other := by
    rintro other member rfl
    exact fresh member
  refine ⟨⟨?_, ?_, ?_⟩, tracks.sized, ?_, ?_, ?_⟩
  · exact nodup_append.mpr ⟨tracks.nodup, nodup_singleton id, by
      simpa using fun other member => (other_of_mem other member).symm⟩
  · intro other
    simp [tracks.keys other, AList.mem_insert, or_comm]
  · rw [push_order, length_append, length_singleton]
    omega
  · intro other member
    rw [latest_cons, push_entries, Table.lookup_insert_eq]
    by_cases same : id = other
    · subst same
      exact ⟨_, if_pos rfl, if_pos rfl⟩
    · rw [if_neg same, if_neg (Ne.symm same)]
      exact tracks.recorded other (by simpa [Ne.symm same] using member)
  · refine pairwise_append.mpr ⟨?_, pairwise_singleton _ _, ?_⟩
    · refine tracks.aged.imp_of_mem fun older_mem newer_mem younger => ?_
      rw [age_cons, age_cons, if_neg (other_of_mem _ older_mem), if_neg (other_of_mem _ newer_mem)]
      omega
    · intro older older_mem newer newer_mem
      obtain rfl := mem_singleton.mp newer_mem
      rw [age_cons, age_cons, if_pos rfl, if_neg (other_of_mem older older_mem)]
      exact succ_pos _
  · intro other absent first found
    obtain ⟨dropped, ne⟩ : other ∉ cache.order ∧ id ≠ other := by
      simpa [eq_comm] using absent
    rw [latest_cons, if_neg ne] at found
    rw [age_cons, if_neg ne]
    exact tracks.forgotten other dropped first found

theorem settle (tracks : Tracks capacity slack now accepted cache) {readings : Readings}
    (after : now ≤ readings.seen) :
    Tracks capacity slack readings.finish accepted
      (if cache.len % 100 = 0 then cache.removeExpired readings.resweep else cache) := by
  split
  · exact tracks.removeExpired (fun id => after.trans (readings.seen_le id)) readings.resweep_le
  · exact tracks.mono (le_refl slack) (after.trans readings.seen_le_finish)

end Tracks

variable {limit ttl : Nat} {id : String} {readings}

theorem insert_panicked (fresh : cache.contains id = false)
    (beyond : ¬ readings.seen + ttl < limit) :
    cache.insert limit id ttl readings = (none, cache.evictIfNeeded readings.sweep) := by
  rw [MessageCache.insert, fresh, MessageMeta.new, if_neg beyond]
  rfl

theorem insert_accepted (fresh : cache.contains id = false) (fits : readings.seen + ttl < limit) :
    cache.insert limit id ttl readings =
      (some true, (cache.evictIfNeeded readings.sweep).push id readings.seen ttl) := by
  rw [MessageCache.insert, fresh, MessageMeta.new, if_pos fits]
  rfl

namespace Feed

variable {feed : Feed} {call : Call}

section

variable {now : Nat} (positive : 0 < capacity)
  (tracks : Tracks capacity 0 now feed.accepted feed.filter.cache)
  (deduplicated : Deduplicated capacity feed.accepted)
include positive tracks deduplicated

/-- One call keeps the record of the acceptances and accepts no identifier too early. -/
theorem step_tracks (after : now ≤ call.readings.start) (admissible : feed.Admissible limit call) :
    Tracks capacity 0 call.readings.finish (feed.step limit call).accepted
        (feed.step limit call).filter.cache ∧
      Deduplicated capacity (feed.step limit call).accepted := by
  have seen := after.trans ((call.readings.start_le "").trans (call.readings.sweep_le ""))
  have finished := call.readings.seen_le_finish
  have swept : ∀ id, now ≤ call.readings.sweep id :=
    fun id => after.trans (call.readings.start_le id)
  cases named : call.announcement.getOrGenerateMessageId with
  | none =>
    simp only [step, checkAndInsert, named]
    exact ⟨tracks.mono (le_refl 0) (seen.trans finished), deduplicated⟩
  | some id =>
    cases held : feed.filter.cache.contains id with
    | true =>
      simp only [step, checkAndInsert, named, MessageCache.insert, held, if_true]
      exact ⟨tracks.settle seen, deduplicated⟩
    | false =>
      have absent : id ∉ feed.filter.cache.order := by
        rw [← tracks.contains_iff, held]
        exact Bool.false_ne_true
      by_cases fits : call.readings.seen + call.announcement.effectiveTtl < limit
      · simp only [step, checkAndInsert, named, insert_accepted held fits]
        obtain ⟨evicted, room⟩ := tracks.evictIfNeeded swept call.readings.sweep_le positive
        have fresh : id ∉ (feed.filter.cache.evictIfNeeded call.readings.sweep).order :=
          fun member => absent (((evictOldest_sublist _ _ _).trans filter_sublist).subset member)
        refine ⟨(evicted.push fresh room).settle (le_refl _), deduplicated.cons ?_⟩
        exact (tracks.forgotten id absent).mono (le_refl 0) seen
      · -- An announcement that panics evicts nothing, because the cache has room.
        have room : feed.filter.cache.order.length < capacity := by
          have := admissible id named
          rw [held, tracks.len_eq, tracks.sized] at this
          simpa [fits] using this
        simp only [step, checkAndInsert, named, insert_panicked held fits]
        have evicted := tracks.evictIfNeeded_of_room swept call.readings.sweep_le room
        exact ⟨evicted.mono (le_refl 0) finished, deduplicated⟩

theorem run_sound {calls : List Call} (after : ∀ call ∈ calls, now ≤ call.readings.start)
    (ordered : calls.Pairwise fun earlier later =>
      earlier.readings.finish ≤ later.readings.start)
    (guarded : Guarded (step limit) (Admissible limit) feed calls) :
    Always (step limit) (Sound capacity) feed calls := by
  induction calls generalizing feed now with
  | nil => exact (always_nil _ _).mpr ⟨tracks.toConsistent, deduplicated⟩
  | cons call rest ih =>
    obtain ⟨admissible, later⟩ := guarded
    obtain ⟨precedes, restOrdered⟩ := pairwise_cons.mp ordered
    obtain ⟨nextTracks, nextDeduplicated⟩ := step_tracks positive tracks deduplicated
      (after call mem_cons_self) admissible
    exact (always_cons _ _).mpr ⟨⟨tracks.toConsistent, deduplicated⟩,
      ih nextTracks nextDeduplicated precedes restOrdered later⟩

end

theorem start_tracks :
    Tracks capacity 0 0 (start capacity).accepted (start capacity).filter.cache where
  nodup := nodup_nil
  keys id := by simp [start, withCapacity, new]
  bounded := zero_le capacity
  sized := rfl
  recorded := forall_mem_nil _
  aged := List.Pairwise.nil
  forgotten _ _ _ found := by cases found

/-- The filter accepts no identifier too early and keeps its queue and its table in step, when each
new announcement that finds the cache full has a lifetime that ends at an instant. -/
theorem deduplication_sound (limit capacity : Nat) (positive : 0 < capacity) (calls : List Call)
    (ordered : calls.Pairwise fun earlier later =>
      earlier.readings.finish ≤ later.readings.start)
    (guarded : Guarded (step limit) (Admissible limit) (start capacity) calls) :
    Always (step limit) (Sound capacity) (start capacity) calls := by
  have empty : Deduplicated capacity (start capacity).accepted := by
    intro later again between first earlier split
    simp [start] at split
  exact run_sound positive (start_tracks) empty (fun _ _ => zero_le _) ordered guarded

end Feed

def sampleNotice (id : String) (ttl : UInt64) : Announcement :=
  ⟨sampleHash, ⟨[]⟩, "2026-01-01T00:00:00+00:00", some id, some ttl⟩

/-- The seconds of an instant are a signed 64-bit number. -/
def instantLimit : Nat := 2 ^ 63 * nanosPerSec

/-- The cache of one identifier drops the first announcement for the second and forgets that it
has seen it. -/
def replacedNotice : List Call :=
  [⟨sampleNotice "first" 3600, .at 0⟩, ⟨sampleNotice "second" 60, .at 1⟩,
    ⟨sampleNotice "first" 3600, .at 2⟩]

theorem replacedNotice_sound :
    Always (Feed.step instantLimit) (Feed.Sound 1) (Feed.start 1) replacedNotice :=
  Feed.deduplication_sound instantLimit 1 (by decide) replacedNotice (by decide) (by decide)

/-- The second announcement panics after the first one was evicted for it. -/
def endlessNotice : List Call :=
  [⟨sampleNotice "first" 3600, .at 0⟩, ⟨sampleNotice "second" 18446744073709551615, .at 1⟩,
    ⟨sampleNotice "first" 3600, .at 2⟩]

theorem deduplication_not_sound :
    ¬ ∀ (limit capacity : Nat) (calls : List Call), 0 < capacity →
      (calls.Pairwise fun earlier later => earlier.readings.finish ≤ later.readings.start) →
        Always (Feed.step limit) (Feed.Sound capacity) (Feed.start capacity) calls := by
  intro all
  have sound := (all instantLimit 1 endlessNotice (by decide) (by decide)).final
  have accepted : (run (Feed.step instantLimit) (Feed.start 1) endlessNotice).accepted =
      [⟨"first", 2, 3600 * nanosPerSec⟩, ⟨"first", 0, 3600 * nanosPerSec⟩] := by
    decide
  have again := sound.deduplicated [] _ [] _ [] accepted rfl (forall_mem_nil _)
  revert again
  decide

end A3Net.Gossip
