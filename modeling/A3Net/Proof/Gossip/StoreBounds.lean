import A3Net.Construction.Gossip.Persistence
import A3Net.Machine.History

namespace A3Net.Gossip.MemoryMessageStore

open Machine List Table Nat

variable {config : PersistenceConfig} {now : Nat} {messages : List StoredMessage}

/-- What is kept was there before, and a dropped message is expired or no newer than those that are
kept. -/
structure Newest (expired : StoredMessage → Prop) (before after : List StoredMessage) : Prop where
  subset : after ⊆ before
  newest : ∀ dropped ∈ before, dropped ∉ after →
    expired dropped ∨ ∀ kept ∈ after, dropped.sequence ≤ kept.sequence

theorem Newest.refl (expired : StoredMessage → Prop) (messages : List StoredMessage) :
    Newest expired messages messages :=
  ⟨List.Subset.refl _, fun _ member missing => absurd member missing⟩

theorem Newest.trans {expired : StoredMessage → Prop} {before middle after : List StoredMessage}
    (one : Newest expired before middle) (two : Newest expired middle after) :
    Newest expired before after := by
  refine ⟨List.Subset.trans two.subset one.subset, fun dropped member missing => ?_⟩
  by_cases between : dropped ∈ middle
  · exact two.newest dropped between missing
  · rcases one.newest dropped member between with gone | older
    · exact .inl gone
    · exact .inr fun kept inside => older kept (two.subset inside)

theorem Newest.mono {first second : StoredMessage → Prop} {before after : List StoredMessage}
    (newest : Newest first before after) (weaker : ∀ msg, first msg → second msg) :
    Newest second before after :=
  ⟨newest.subset, fun dropped member missing =>
    (newest.newest dropped member missing).imp_left (weaker dropped)⟩

variable {msg : StoredMessage}

theorem mem_newestFirst : msg ∈ newestFirst messages ↔ msg ∈ messages :=
  mem_insertionSort _

theorem newestFirst_pairwise (messages : List StoredMessage) :
    (newestFirst messages).Pairwise fun first second => second.sequence ≤ first.sequence := by
  have total : Std.Total fun first second : StoredMessage => second.sequence ≤ first.sequence :=
    ⟨fun first second => le_total second.sequence first.sequence⟩
  have trans : IsTrans StoredMessage fun first second => second.sequence ≤ first.sequence :=
    ⟨fun _ _ _ one two => le_trans two one⟩
  exact pairwise_insertionSort _ messages

theorem cleanupInternal_length :
    (cleanupInternal config now messages).length ≤ config.maxMessagesPerRoom := by
  unfold cleanupInternal
  dsimp only
  split_ifs with full
  · exact length_take_le _ _
  · exact not_lt.mp full

/-- The messages behind the cut are no newer than those in front of it. -/
theorem newest_take (count : Nat) :
    Newest (fun _ => False) messages ((newestFirst messages).take count) := by
  have sorted := newestFirst_pairwise messages
  rw [← take_append_drop count (newestFirst messages), pairwise_append] at sorted
  refine ⟨fun msg inside => mem_newestFirst.mp (mem_of_mem_take inside), ?_⟩
  intro dropped member missing
  right
  intro kept inside
  have listed := mem_newestFirst.mpr member
  rw [← take_append_drop count (newestFirst messages), mem_append] at listed
  exact sorted.2.2 kept inside dropped (listed.resolve_left missing)

theorem cleanupInternal_newest :
    Newest (fun msg => live config now msg = false) messages
      (cleanupInternal config now messages) := by
  have filtered : Newest (fun msg => live config now msg = false) messages
      (messages.filter (live config now)) := by
    refine ⟨filter_subset_self _, fun dropped member missing => .inl ?_⟩
    by_contra still
    exact missing (mem_filter.mpr ⟨member, Bool.not_eq_false _ ▸ still⟩)
  unfold cleanupInternal
  dsimp only
  split_ifs with full
  · exact filtered.trans ((newest_take _).mono fun _ => False.elim)
  · exact filtered

variable {total target : Nat} {sweep : String → Nat}

/-- The loop never stops early, because the number that it compares stays above the target. -/
theorem lookup_evict (full : target < total)
    (rooms : List (Sigma fun _ : String => List StoredMessage)) (nodup : rooms.NodupKeys)
    (messages : Table String (List StoredMessage)) (key : String) :
    (evict config total target sweep rooms messages).lookup key =
      if key ∈ rooms.keys then (messages.lookup key).map (cleanupInternal config (sweep key))
      else messages.lookup key := by
  induction rooms generalizing messages with
  | nil => rfl
  | cons room rest ih =>
    obtain ⟨fresh, later⟩ := nodupKeys_cons.mp nodup
    unfold evict
    dsimp only
    rw [if_neg (not_le.mpr full), ih later, lookup_modify, keys_cons]
    by_cases same : key = room.1
    · subst same
      rw [if_neg fresh, if_pos rfl, if_pos mem_cons_self]
    · rw [if_neg same]
      congr 1
      exact propext ⟨mem_cons_of_mem _, fun inside => (mem_cons.mp inside).resolve_left same⟩

theorem sweepRooms_messages (store : MemoryMessageStore) {readings : StoreReadings}
    (full : store.maxTotal < store.totalCount) (key : String) :
    (store.sweepRooms readings).messages.lookup key =
      (store.messages.mapEntries fun room =>
        cleanupInternal store.config (readings.sweep room)).lookup key := by
  unfold sweepRooms
  dsimp only
  rw [if_pos full, lookup_mapEntries]
  have rooms : ((readings.rooms.arrange store.messages.entries).insertionSort fun first second =>
      oldestBefore (oldest first.2) (oldest second.2)).Perm store.messages.entries :=
    (perm_insertionSort _ _).trans (readings.rooms.perm _)
  have nodup := (perm_nodupKeys rooms).mpr store.messages.nodupKeys
  rw [lookup_evict (by omega) _ nodup]
  split_ifs with present
  · rfl
  · have missing : store.messages.lookup key = none := by
      rw [AList.lookup_eq_none]
      intro inside
      apply present
      have keys : _ := (rooms.map Sigma.fst).mem_iff.mpr (AList.mem_keys.mp inside)
      exact keys
    rw [missing, Option.map_none]

variable (store : MemoryMessageStore)

def RoomsBounded : Prop :=
  ∀ room messages, store.messages.lookup room = some messages →
    messages.length ≤ store.config.maxMessagesPerRoom

def TotalBounded : Prop := store.totalCount ≤ store.maxTotal

/-- This counts the messages that are not expired when the clock is read for their room. -/
def unexpired (clock : String → Nat) : Nat :=
  store.messages.total fun room messages => messages.countP (live store.config (clock room))

/-- A call of `store` offers its message to its room, behind the messages that are there. -/
def offered (room : String) (msg : StoredMessage) (key : String) : List StoredMessage :=
  if key = room then
    store.roomMessages room ++ [{msg with sequence := (store.counters.lookup room).getD 0 + 1}]
  else store.roomMessages key

/-- No room drops an unexpired message while it keeps an older one. -/
def KeepsNewest : StoreCall → Prop
  | .store room msg readings =>
    ∀ key, Newest (fun dropped => live store.config readings.now dropped = false ∨
        live store.config (readings.sweep key) dropped = false)
      (store.offered room msg key) ((store.store room msg readings).roomMessages key)
  | .cleanupExpired clock =>
    ∀ key, Newest (fun dropped => live store.config (clock key) dropped = false)
      (store.roomMessages key) ((store.cleanupExpired clock).2.roomMessages key)

/-- The unexpired messages of all rooms fit the total limit. -/
def UnexpiredFit : StoreCall → Prop
  | .store room msg readings =>
    (store.push room msg readings.now).unexpired readings.sweep ≤ store.maxTotal
  | .cleanupExpired _ => True

variable {store} {readings : StoreReadings} (clock : String → Nat)

@[simp] theorem sweepRooms_config : (store.sweepRooms readings).config = store.config := by
  unfold sweepRooms
  dsimp only
  split <;> rfl

@[simp] theorem sweepRooms_maxTotal : (store.sweepRooms readings).maxTotal = store.maxTotal := by
  unfold sweepRooms
  dsimp only
  split <;> rfl

theorem sweepRooms_idle (small : store.totalCount ≤ store.maxTotal) :
    store.sweepRooms readings = store :=
  if_neg (not_lt.mpr small)

theorem lookup_push (room : String) (msg : StoredMessage) (now : Nat) (key : String) :
    (store.push room msg now).messages.lookup key =
      if key = room then some (cleanupInternal store.config now (store.offered room msg room))
      else store.messages.lookup key := by
  unfold push offered
  dsimp only
  rw [lookup_insert_eq, if_pos rfl]

variable {call : StoreCall}

section

variable (bounded : RoomsBounded store)
include bounded

theorem push_bounded {room : String} : RoomsBounded (store.push room msg now) := by
  intro key messages found
  rw [lookup_push] at found
  split_ifs at found
  · cases found
    exact cleanupInternal_length
  · exact bounded key messages found

omit bounded in
theorem mapEntries_bounded {clock : String → Nat} :
    RoomsBounded {store with
      messages := store.messages.mapEntries fun room =>
        cleanupInternal store.config (clock room)} := by
  intro key messages found
  rw [lookup_mapEntries, Option.map_eq_some_iff] at found
  obtain ⟨before, -, rfl⟩ := found
  exact cleanupInternal_length

theorem sweepRooms_bounded : RoomsBounded (store.sweepRooms readings) := by
  by_cases full : store.maxTotal < store.totalCount
  · intro key messages found
    rw [sweepRooms_messages store full] at found
    rw [sweepRooms_config]
    exact mapEntries_bounded key messages found
  · rw [sweepRooms_idle (not_lt.mp full)]
    exact bounded

theorem step_bounded : RoomsBounded (store.step call) := by
  cases call with
  | store room msg readings =>
    exact sweepRooms_bounded (push_bounded bounded)
  | cleanupExpired clock => exact mapEntries_bounded

omit bounded in
theorem unexpired_le : store.unexpired clock ≤ store.totalCount :=
  sum_le_sum fun _ _ => countP_le_length

/-- Rooms within their limit lose only what has expired. -/
theorem total_cleaned {clock : String → Nat} :
    ((store.messages.mapEntries fun room => cleanupInternal store.config (clock room)).total
      fun _ messages => messages.length) = store.unexpired clock := by
  rw [total_mapEntries]
  refine congrArg List.sum (map_congr_left fun ⟨room, messages⟩ member => ?_)
  have few := (length_filter_le (live store.config (clock room)) messages).trans
    (bounded room messages (AList.mem_lookup_iff.mpr member))
  dsimp only
  rw [show cleanupInternal store.config (clock room) messages = _ from if_neg (not_lt.mpr few),
    countP_eq_length_filter]

theorem sweepRooms_total_iff :
    TotalBounded (store.sweepRooms readings) ↔ store.unexpired readings.sweep ≤ store.maxTotal := by
  by_cases full : store.maxTotal < store.totalCount
  · unfold TotalBounded totalCount
    rw [total_congr _ (sweepRooms_messages store full), total_cleaned bounded, sweepRooms_maxTotal]
  · have small := not_lt.mp full
    rw [sweepRooms_idle small]
    exact iff_of_true small ((unexpired_le readings.sweep).trans small)

theorem step_total_iff (total : TotalBounded store) :
    TotalBounded (store.step call) ↔ UnexpiredFit store call := by
  cases call with
  | store room msg readings =>
    exact sweepRooms_total_iff (push_bounded bounded)
  | cleanupExpired clock =>
    refine iff_of_true ?_ trivial
    have fewer := @unexpired_le store clock
    rw [← total_cleaned bounded] at fewer
    exact fewer.trans total

end

theorem roomMessages_push (room : String) (msg : StoredMessage) (now : Nat) (key : String) :
    Newest (fun dropped => live store.config now dropped = false)
      (store.offered room msg key) ((store.push room msg now).roomMessages key) := by
  unfold roomMessages
  rw [lookup_push]
  split_ifs with same
  · subst same
    exact cleanupInternal_newest
  · rw [offered, if_neg same]
    exact Newest.refl _ _

theorem roomMessages_mapEntries (key : String) :
    Newest (fun dropped => live store.config (clock key) dropped = false) (store.roomMessages key)
      (((store.messages.mapEntries fun room =>
        cleanupInternal store.config (clock room)).lookup key).getD []) := by
  unfold roomMessages
  rw [lookup_mapEntries]
  cases store.messages.lookup key with
  | none => exact Newest.refl _ _
  | some messages => exact cleanupInternal_newest

theorem roomMessages_sweepRooms (key : String) :
    Newest (fun dropped => live store.config (readings.sweep key) dropped = false)
      (store.roomMessages key) ((store.sweepRooms readings).roomMessages key) := by
  by_cases full : store.maxTotal < store.totalCount
  · rw [roomMessages, roomMessages, sweepRooms_messages store full]
    exact roomMessages_mapEntries readings.sweep key
  · rw [sweepRooms_idle (not_lt.mp full)]
    exact Newest.refl _ _

theorem keepsNewest : KeepsNewest store call := by
  cases call with
  | store room msg readings =>
    intro key
    have pushed := @roomMessages_push store room msg readings.now key
    have swept := @roomMessages_sweepRooms (store.push room msg readings.now) readings key
    exact (pushed.mono fun _ => Or.inl).trans (swept.mono fun _ => Or.inr)
  | cleanupExpired clock => exact roomMessages_mapEntries clock

theorem new_bounded {max : Nat} (made : new max = some store) :
    RoomsBounded store ∧ TotalBounded store := by
  unfold new withConfig at made
  dsimp only at made
  split_ifs at made
  cases made
  exact ⟨fun _ _ found => absurd found (by simp), zero_le _⟩

/-- Every room keeps its limit and its newest messages. All rooms together keep their limit exactly
when no call finds more unexpired messages than that. -/
theorem memoryStore_bounds (max : Nat) (store : MemoryMessageStore) (made : new max = some store)
    (calls : List StoreCall) :
    Always step RoomsBounded store calls ∧
      Stepwise (fun past call => KeepsNewest (run step store past) call) calls ∧
        (Always step TotalBounded store calls ↔ Guarded step UnexpiredFit store calls) := by
  obtain ⟨rooms, total⟩ := new_bounded made
  refine ⟨?_, fun past call _ => keepsNewest, ?_⟩
  · exact (guarded_true step store calls).always step
      (fun state call bounded _ => step_bounded bounded) rooms
  · exact always_iff_guarded_of step RoomsBounded
      (fun state call bounded total _ => step_total_iff bounded total)
      (fun state call bounded _ _ _ => step_bounded bounded) rooms total
      (guarded_true step store calls)

/-- This message never expires by its own time. -/
def sampleMessage : StoredMessage := ⟨"id", "", [], 0, none, 0⟩

/-- The clock stands still. -/
def sampleCall (room : String) : StoreCall :=
  .store room sampleMessage ⟨0, fun _ => 0, Reading.plain _⟩

/-- The second message takes the place of the first one, and another room has a message of its own. -/
def sampleCalls : List StoreCall := [sampleCall "lobby", sampleCall "lobby", sampleCall "garden"]

theorem memoryStore_bounds_sample :
    ∃ store, new 1 = some store ∧ Always step RoomsBounded store sampleCalls ∧
      Stepwise (fun past call => KeepsNewest (run step store past) call) sampleCalls ∧
        Always step TotalBounded store sampleCalls := by
  obtain ⟨rooms, newest, total⟩ := memoryStore_bounds 1 _ rfl sampleCalls
  refine ⟨_, rfl, rooms, newest, total.mpr ⟨?_, ?_, ?_, trivial⟩⟩ <;>
    dsimp only [sampleCall, UnexpiredFit] <;> decide +kernel

/-- One message in each of one hundred and one rooms is one too many. -/
theorem memoryStore_exceeds_total :
    ¬ ∀ (max : Nat) (store : MemoryMessageStore), new max = some store →
      ∀ calls, Always step TotalBounded store calls := by
  intro all
  have bounded := (all 1 _ rfl ((List.range 101).map fun index =>
    sampleCall (String.singleton (Char.ofNat index)))).final
  revert bounded
  unfold TotalBounded
  decide +kernel

end A3Net.Gossip.MemoryMessageStore
