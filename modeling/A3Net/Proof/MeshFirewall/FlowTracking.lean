/-
The tracker is compared with a record of the flows that forgets a flow only when it is closed.
-/

import A3Net.Construction.MeshFirewall.Conntrack
import A3Net.Machine.Run

namespace A3Net.MeshFirewall

open Machine ConnTracker List Option

inductive TrackerCall where
  | openOutbound (key : ConnKey)
  | lookup (key : ConnKey)
  | lookupInbound (reading : Reading ConnEntry) (probe : InboundProbe)
  | close (key : ConnKey)
  | sweep

structure TimedCall where
  call : TrackerCall
  now : Nat

/-- Each flow stands with the last time at which it was opened or seen. -/
structure Monitor where
  tracker : ConnTracker
  flows : Table ConnKey Nat
  clock : Nat

namespace Monitor

def start (config : ConnTrackerConfig) : Monitor := ⟨.new config, ∅, 0⟩

def step (monitor : Monitor) (timed : TimedCall) : Monitor :=
  let now := timed.now
  match timed.call with
  | .openOutbound key =>
    match monitor.tracker.openOutbound key now with
    | (.ok (), tracker) => ⟨tracker, monitor.flows.insert key now, now⟩
    | (.error _, tracker) => ⟨tracker, monitor.flows, now⟩
  | .lookup key =>
    match monitor.tracker.lookup key now with
    | (true, tracker) => ⟨tracker, monitor.flows.insert key now, now⟩
    | (false, tracker) => ⟨tracker, monitor.flows, now⟩
  | .lookupInbound reading probe =>
    match monitor.tracker.lookupInbound reading probe now,
        monitor.tracker.firstMatching reading probe with
    | (true, tracker), some entry => ⟨tracker, monitor.flows.insert entry.key now, now⟩
    | (_, tracker), _ => ⟨tracker, monitor.flows, now⟩
  | .close key => ⟨(monitor.tracker.close key).2, monitor.flows.erase key, now⟩
  | .sweep => ⟨(monitor.tracker.sweep now).2, monitor.flows, now⟩

variable (monitor : Monitor)

/-- The flow was opened or seen within the idle timeout. -/
def Live (key : ConnKey) (now : Nat) : Prop :=
  ∃ last, monitor.flows.lookup key = some last ∧ now - last ≤ monitor.tracker.config.idleTimeout

variable (timed : TimedCall)

/-- A search finds something exactly when a live flow has the triple, and the table is called full
only when it is full of live flows. -/
def Correct : Prop :=
  match timed.call with
  | .lookupInbound reading probe =>
    (monitor.tracker.lookupInbound reading probe timed.now).1 = true ↔
      ∃ key, probe.matches key ∧ monitor.Live key timed.now
  | .openOutbound key =>
    (monitor.tracker.openOutbound key timed.now).1 =
        .error (.full monitor.tracker.config.maxEntries) →
      ∃ live : List ConnKey, live.Nodup ∧ monitor.tracker.config.maxEntries ≤ live.length ∧
        ∀ flow ∈ live, monitor.Live flow timed.now
  | _ => True

/-- A search does not meet an expired entry before a live one, and a full table has
`max_entries` entries that are not expired. -/
def Unhidden : Prop :=
  match timed.call with
  | .lookupInbound reading probe =>
    ∀ entry, monitor.tracker.firstMatching reading probe = some entry →
      monitor.tracker.expired entry timed.now = true →
        ∀ other ∈ monitor.tracker.entries.values, probe.matches other.key →
          monitor.tracker.expired other timed.now = true
  | .openOutbound key =>
    monitor.tracker.entries.lookup key = none →
      monitor.tracker.config.maxEntries ≤ monitor.tracker.entries.values.length →
        monitor.tracker.config.maxEntries ≤ (monitor.tracker.entries.values.filter
          fun entry => !monitor.tracker.expired entry timed.now).length
  | _ => True

/-- The times do not decrease. -/
def Timely : Prop := monitor.clock ≤ timed.now

end Monitor

variable {timeout clock now last : Nat} {entry flow : Option Nat}

/-- The table has a flow as it is, or it has dropped an expired one. -/
def TracksAt (timeout clock : Nat) (entry flow : Option Nat) : Prop :=
  (∀ last, flow = some last → last ≤ clock) ∧
    (entry = flow ∨ entry = none ∧ ∀ last, flow = some last → timeout < clock - last)

theorem TracksAt.later (tracks : TracksAt timeout clock entry flow) (order : clock ≤ now) :
    TracksAt timeout now entry flow := by
  obtain ⟨past, kept⟩ := tracks
  refine ⟨fun last found => (past last found).trans order, kept.imp_right ?_⟩
  intro ⟨absent, expired⟩
  refine ⟨absent, fun last found => ?_⟩
  have before := expired last found
  omega

theorem TracksAt.seen : TracksAt timeout now (some now) (some now) :=
  ⟨fun _ found => (Option.some.inj found).ge, Or.inl rfl⟩

theorem TracksAt.closed : TracksAt timeout now none none :=
  ⟨fun _ found => absurd found (some_ne_none _).symm, Or.inl rfl⟩

theorem TracksAt.dropped (tracks : TracksAt timeout clock (some last) flow) (order : clock ≤ now)
    (expired : timeout < now - last) : TracksAt timeout now none flow := by
  obtain ⟨past, kept⟩ := tracks.later order
  refine ⟨past, Or.inr ⟨rfl, fun time found => ?_⟩⟩
  rcases kept with same | ⟨absent, _⟩
  · rw [found, Option.some.injEq] at same
    omega
  · cases absent

/-- A flow is live exactly when the table has it and it is not expired there. -/
theorem TracksAt.live_iff (tracks : TracksAt timeout clock entry flow) (order : clock ≤ now) :
    (∃ last, flow = some last ∧ now - last ≤ timeout) ↔
      ∃ last, entry = some last ∧ now - last ≤ timeout := by
  obtain ⟨_, same | ⟨absent, expired⟩⟩ := tracks.later order
  · rw [same]
  · constructor
    · intro ⟨last, found, recent⟩
      have late := expired last found
      omega
    · intro ⟨last, found, _⟩
      rw [absent] at found
      cases found

namespace Monitor

variable {monitor : Monitor}

/-- The table tracks each flow of the record. -/
def Tracks (monitor : Monitor) : Prop :=
  ∀ key, TracksAt monitor.tracker.config.idleTimeout monitor.clock
    ((monitor.tracker.entries.lookup key).map ConnEntry.lastSeen) (monitor.flows.lookup key)

section

variable (tracks : monitor.Tracks) (order : monitor.clock ≤ now)
include tracks order

theorem Tracks.idle : Tracks ⟨monitor.tracker, monitor.flows, now⟩ :=
  fun key => (tracks key).later order

/-- A flow that is opened or seen is in the table and in the record with the time. -/
theorem Tracks.seen (entry : ConnEntry) (seen : entry.lastSeen = now) :
    Tracks ⟨{ monitor.tracker with entries := monitor.tracker.entries.insert entry },
      monitor.flows.insert entry.key now, now⟩ := by
  intro key
  simp only [KeyedTable.lookup_insert, Table.lookup_insert_eq]
  split
  · rw [map_some, seen]
    exact TracksAt.seen
  · exact (tracks key).later order

theorem Tracks.evicted {key : ConnKey} {entry : ConnEntry}
    (found : monitor.tracker.entries.lookup key = some entry)
    (expired : monitor.tracker.expired entry now = true) :
    Tracks ⟨monitor.tracker.evict key, monitor.flows, now⟩ := by
  intro other
  simp only [evict, KeyedTable.lookup_erase]
  split
  · next same =>
    have tracked := tracks key
    rw [found] at tracked
    rw [same]
    exact tracked.dropped order (of_decide_eq_true expired)
  · exact (tracks other).later order

theorem Tracks.closed (key : ConnKey) :
    Tracks ⟨monitor.tracker.evict key, monitor.flows.erase key, now⟩ := by
  intro other
  simp only [evict, KeyedTable.lookup_erase, Table.lookup_erase_eq]
  split
  · exact TracksAt.closed
  · exact (tracks other).later order

theorem Tracks.swept : Tracks ⟨(monitor.tracker.sweep now).2, monitor.flows, now⟩ := by
  intro key
  have tracked := tracks key
  simp only [sweep, KeyedTable.lookup_keep]
  cases found : monitor.tracker.entries.lookup key with
  | none =>
    rw [found] at tracked
    exact tracked.later order
  | some entry =>
    rw [found] at tracked
    by_cases expired : monitor.tracker.expired entry now = true
    · simp only [filter_some, expired, Bool.not_true, Bool.false_eq_true, if_false]
      exact tracked.dropped order (of_decide_eq_true expired)
    · simp only [filter_some, expired, Bool.not_false, if_true]
      exact tracked.later order

end

end Monitor

variable (tracker : ConnTracker) (reading : Reading ConnEntry) {probe : InboundProbe}

theorem ConnTracker.firstMatching_some {entry : ConnEntry}
    (found : tracker.firstMatching reading probe = some entry) :
    entry ∈ tracker.entries.values ∧ probe.matches entry.key = true := by
  have member := mem_of_find?_eq_some found
  have passes := find?_some found
  exact ⟨(reading.perm _).mem_iff.mp member, passes⟩

theorem ConnTracker.firstMatching_none (absent : tracker.firstMatching reading probe = none) :
    ∀ entry ∈ tracker.entries.values, probe.matches entry.key = false := by
  intro entry member
  have all := find?_eq_none.mp absent entry ((reading.perm _).mem_iff.mpr member)
  exact Bool.eq_false_iff.mpr all

theorem ConnTracker.lookupInbound_true_iff {now : Nat} :
    (tracker.lookupInbound reading probe now).1 = true ↔
      ∃ entry, tracker.firstMatching reading probe = some entry ∧
        tracker.expired entry now = false := by
  simp only [lookupInbound]
  split
  · next absent => simp [absent]
  · next entry found =>
    split
    · next expired => simp [found, expired]
    · next alive => simp [found, alive]

/-- A search that finds something has a live entry with the triple. -/
theorem ConnTracker.lookupInbound_sound {now : Nat}
    (found : (tracker.lookupInbound reading probe now).1 = true) :
    ∃ entry ∈ tracker.entries.values, probe.matches entry.key = true ∧
      tracker.expired entry now = false := by
  obtain ⟨entry, first, alive⟩ := (tracker.lookupInbound_true_iff reading).mp found
  obtain ⟨stored, same⟩ := tracker.firstMatching_some reading first
  exact ⟨entry, stored, same, alive⟩

/-- A search finds a live entry exactly when no expired entry hides it. -/
theorem ConnTracker.lookupInbound_complete_iff (now : Nat) :
    ((tracker.lookupInbound reading probe now).1 = true ↔
        ∃ entry ∈ tracker.entries.values, probe.matches entry.key = true ∧
          tracker.expired entry now = false) ↔
      ∀ entry, tracker.firstMatching reading probe = some entry →
        tracker.expired entry now = true →
          ∀ other ∈ tracker.entries.values, probe.matches other.key →
            tracker.expired other now = true := by
  constructor
  · intro complete entry first expired other stored same
    rw [← Bool.not_eq_false]
    intro alive
    obtain ⟨found, again, fresh⟩ := (tracker.lookupInbound_true_iff reading).mp
      (complete.mpr ⟨other, stored, same, alive⟩)
    rw [first, Option.some.injEq] at again
    rw [← again, expired] at fresh
    cases fresh
  · intro unhidden
    refine ⟨tracker.lookupInbound_sound reading, ?_⟩
    intro ⟨other, stored, same, alive⟩
    rw [lookupInbound_true_iff]
    cases first : tracker.firstMatching reading probe with
    | none =>
      have none := tracker.firstMatching_none reading first other stored
      rw [same] at none
      cases none
    | some entry =>
      refine ⟨entry, rfl, ?_⟩
      rw [← Bool.not_eq_true]
      intro expired
      have late := unhidden entry first expired other stored same
      rw [alive] at late
      cases late

theorem ConnTracker.openOutbound_full_iff (key : ConnKey) (now : Nat) :
    (tracker.openOutbound key now).1 = .error (.full tracker.config.maxEntries) ↔
      tracker.entries.lookup key = none ∧
        tracker.config.maxEntries ≤ tracker.entries.values.length := by
  simp only [openOutbound]
  split
  · next full => simpa [isNone_iff_eq_none] using full
  · next space => simpa [isNone_iff_eq_none] using space

namespace Monitor

variable {monitor : Monitor}

section

variable (tracks : monitor.Tracks)
include tracks

theorem Tracks.step (timed : TimedCall)
    (order : monitor.Timely timed) : (monitor.step timed).Tracks := by
  obtain ⟨call, now⟩ := timed
  cases call with
  | openOutbound key =>
    simp only [Monitor.step, ConnTracker.openOutbound]
    by_cases full : ((monitor.tracker.entries.lookup key).isNone &&
        monitor.tracker.config.maxEntries ≤ monitor.tracker.entries.values.length) = true
    · simp only [full, if_true]
      exact tracks.idle order
    · simp only [full, Bool.false_eq_true, if_false]
      exact tracks.seen order ⟨key, .out, now, now⟩ rfl
  | lookup key =>
    simp only [Monitor.step, ConnTracker.lookup]
    cases found : monitor.tracker.entries.lookup key with
    | none => exact tracks.idle order
    | some entry =>
      by_cases expired : monitor.tracker.expired entry now = true
      · simp only [expired, if_true]
        exact tracks.evicted order found expired
      · simp only [expired, Bool.false_eq_true, if_false]
        have own := monitor.tracker.entries.keyed key entry found
        rw [← own]
        exact tracks.seen order { entry with lastSeen := now } rfl
  | lookupInbound reading probe =>
    simp only [Monitor.step, ConnTracker.lookupInbound]
    cases first : monitor.tracker.firstMatching reading probe with
    | none => exact tracks.idle order
    | some entry =>
      have stored := (monitor.tracker.firstMatching_some reading first).1
      have found := monitor.tracker.entries.lookup_iff.mpr ⟨stored, rfl⟩
      by_cases expired : monitor.tracker.expired entry now = true
      · simp only [expired, if_true]
        exact tracks.evicted order found expired
      · simp only [expired, Bool.false_eq_true, if_false]
        exact tracks.seen order { entry with lastSeen := now } rfl
  | close key => exact tracks.closed order key
  | sweep => exact tracks.swept order

/-- The live flows are the entries of the table that are not expired. -/
theorem Tracks.live_iff (order : monitor.clock ≤ now) (key : ConnKey) :
    monitor.Live key now ↔ ∃ entry ∈ monitor.tracker.entries.values, entry.key = key ∧
      monitor.tracker.expired entry now = false := by
  rw [Live, (tracks key).live_iff order]
  constructor
  · intro ⟨last, found, recent⟩
    obtain ⟨entry, stored, rfl⟩ := map_eq_some_iff.mp found
    obtain ⟨member, own⟩ := monitor.tracker.entries.lookup_iff.mp stored
    exact ⟨entry, member, own, decide_eq_false (Nat.not_lt.mpr recent)⟩
  · intro ⟨entry, member, own, alive⟩
    have stored := monitor.tracker.entries.lookup_iff.mpr ⟨member, own⟩
    exact ⟨entry.lastSeen, by rw [stored]; rfl, Nat.not_lt.mp (of_decide_eq_false alive)⟩

/-- As many flows are live as there are entries that are not expired. -/
theorem Tracks.live_count_iff (order : monitor.clock ≤ now) (count : Nat) :
    (∃ live : List ConnKey, live.Nodup ∧ count ≤ live.length ∧ ∀ flow ∈ live,
        monitor.Live flow now) ↔
      count ≤ (monitor.tracker.entries.values.filter
        fun entry => !monitor.tracker.expired entry now).length := by
  have alive_iff : ∀ flow, monitor.Live flow now ↔ flow ∈ (monitor.tracker.entries.values.filter
      fun entry => !monitor.tracker.expired entry now).map ConnEntry.key := by
    intro flow
    rw [tracks.live_iff order]
    simp only [List.mem_map, mem_filter, Bool.not_eq_true']
    exact ⟨fun ⟨entry, member, own, alive⟩ => ⟨entry, ⟨member, alive⟩, own⟩,
      fun ⟨entry, ⟨member, alive⟩, own⟩ => ⟨entry, member, own, alive⟩⟩
  constructor
  · intro ⟨live, nodup, enough, all⟩
    have inside := subperm_of_subset nodup fun flow member => (alive_iff flow).mp (all flow member)
    have bound := inside.length_le
    rw [length_map] at bound
    exact enough.trans bound
  · intro enough
    refine ⟨_, ?_, ?_, fun flow member => (alive_iff flow).mpr member⟩
    · exact monitor.tracker.entries.values_keys_nodup.sublist (filter_sublist.map ConnEntry.key)
    · rwa [length_map]

theorem Tracks.correct_iff {timed : TimedCall}
    (order : monitor.Timely timed) : monitor.Correct timed ↔ monitor.Unhidden timed := by
  obtain ⟨call, now⟩ := timed
  cases call with
  | lookupInbound reading probe =>
    simp only [Correct, Unhidden, ← lookupInbound_complete_iff]
    have alive : (∃ key, probe.matches key = true ∧ monitor.Live key now) ↔
        ∃ entry ∈ monitor.tracker.entries.values, probe.matches entry.key = true ∧
          monitor.tracker.expired entry now = false := by
      constructor
      · intro ⟨key, same, live⟩
        obtain ⟨entry, member, rfl, alive⟩ := (tracks.live_iff order key).mp live
        exact ⟨entry, member, same, alive⟩
      · intro ⟨entry, member, same, alive⟩
        exact ⟨entry.key, same, (tracks.live_iff order entry.key).mpr ⟨entry, member, rfl, alive⟩⟩
    rw [alive]
  | openOutbound key =>
    simp only [Correct, Unhidden, openOutbound_full_iff, and_imp, tracks.live_count_iff order]
  | lookup | close | sweep => exact Iff.rfl

end

end Monitor

/-- Along a run whose times do not decrease, the tracker answers as the flows are exactly when no
expired entry hides a live one or takes up the room of one. -/
theorem tracking_correct_iff (config : ConnTrackerConfig) (calls : List TimedCall)
    (timely : Guarded Monitor.step Monitor.Timely (.start config) calls) :
    Guarded Monitor.step Monitor.Correct (.start config) calls ↔
      Guarded Monitor.step Monitor.Unhidden (.start config) calls := by
  apply guarded_congr_of _ Monitor.Tracks
  · exact fun monitor timed tracks order => tracks.correct_iff order
  · exact fun monitor timed tracks order _ => tracks.step timed order
  · exact fun _ => TracksAt.closed
  · exact timely

def samplePeer : NodeId := ⟨['a']⟩

/-- Two flows to one port of a peer come from two local ports. -/
def sampleFlow (localPort : UInt16) : ConnKey := ⟨.tcp, samplePeer, 80, localPort, .v4 0 80⟩

def sampleProbe : InboundProbe := ⟨.tcp, samplePeer, 80⟩

/-- A packet returns two nanoseconds after its flow was opened. -/
def returning : List TimedCall :=
  [⟨.openOutbound (sampleFlow 1), 0⟩, ⟨.lookupInbound (.plain _) sampleProbe, 2⟩]

theorem returning_correct :
    Guarded Monitor.step Monitor.Timely (.start ⟨3, 1⟩) returning ∧
      Guarded Monitor.step Monitor.Correct (.start ⟨3, 1⟩) returning := by
  have timely : Guarded Monitor.step Monitor.Timely (.start ⟨3, 1⟩) returning :=
    ⟨Nat.zero_le 0, Nat.zero_le 2, trivial⟩
  refine ⟨timely, (tracking_correct_iff ⟨3, 1⟩ returning timely).mpr ⟨?_, ?_, trivial⟩⟩
  · intro _ full
    exact absurd full (by decide)
  · intro entry first expired
    obtain rfl : (⟨sampleFlow 1, .out, 0, 0⟩ : ConnEntry) = entry := Option.some.inj first
    exact absurd expired (by decide)

/-- The older of two flows is expired, and the reading meets it before the younger one. -/
def masking : List TimedCall :=
  [⟨.openOutbound (sampleFlow 1), 0⟩, ⟨.openOutbound (sampleFlow 2), 5⟩,
    ⟨.lookupInbound ⟨List.reverse, reverse_perm⟩ sampleProbe, 6⟩]

/-- The table has one place, and an expired flow takes it. -/
def crowding : List TimedCall :=
  [⟨.openOutbound (sampleFlow 1), 0⟩, ⟨.openOutbound (sampleFlow 2), 10⟩]

/-- The search misses a live flow, and a table without a live flow is called full. -/
theorem tracking_not_correct :
    (Guarded Monitor.step Monitor.Timely (.start ⟨3, 2⟩) masking ∧
        ¬Guarded Monitor.step Monitor.Correct (.start ⟨3, 2⟩) masking) ∧
      Guarded Monitor.step Monitor.Timely (.start ⟨3, 1⟩) crowding ∧
        ¬Guarded Monitor.step Monitor.Correct (.start ⟨3, 1⟩) crowding := by
  refine ⟨⟨⟨Nat.zero_le 0, Nat.zero_le 5, Nat.le_succ 5, trivial⟩, ?_⟩,
    ⟨Nat.zero_le 0, Nat.zero_le 10, trivial⟩, ?_⟩
  · intro guarded
    have found := guarded.2.2.1.mpr ⟨sampleFlow 2, by decide, 5, by decide, by decide⟩
    exact absurd found (by decide)
  · intro guarded
    obtain ⟨live, _, enough, all⟩ := guarded.2.1 (by decide)
    obtain ⟨flow, member⟩ := exists_mem_of_length_pos enough
    obtain ⟨last, found, recent⟩ := all flow member
    have opened : (AList.insert (sampleFlow 1) 0 (∅ : Table ConnKey Nat)).lookup flow = some last :=
      found
    rw [Table.lookup_insert_eq] at opened
    split at opened
    · obtain rfl : 0 = last := Option.some.inj opened
      exact absurd recent (by decide)
    · cases opened

end A3Net.MeshFirewall
