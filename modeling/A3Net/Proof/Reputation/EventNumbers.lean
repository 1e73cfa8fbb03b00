/-
Each event has a number. The table of the running store, the snapshot and the log are followed by
the numbers of the events that they have.
-/

import A3Net.Machine.Run
import A3Net.Proof.Reputation.Opening

namespace A3Net.Reputation

open Machine PeerScoreTable List Prod

variable {First Second Third : Type*} {related : First → Second → Prop} {seconds : List Second}
  {firsts : List First} {second : Second}

theorem exists_mem_zip (same : List.Forall₂ related firsts seconds) {thirds : List Third}
    {third : Third} (member : (third, second) ∈ thirds.zip seconds) :
    ∃ first, (third, first) ∈ thirds.zip firsts ∧ related first second := by
  induction same generalizing thirds with
  | nil =>
    rw [zip_nil_right] at member
    exact absurd member not_mem_nil
  | @cons first other firsts seconds here _ ih =>
    cases thirds with
    | nil => exact absurd member not_mem_nil
    | cons head thirds =>
      obtain same | later := mem_cons.mp member
      · cases same
        exact ⟨first, mem_cons_self, here⟩
      · obtain ⟨found, inside, holds⟩ := ih later
        exact ⟨found, mem_cons_of_mem _ inside, holds⟩

theorem exists_zip_left (same : List.Forall₂ related firsts seconds) (member : second ∈ seconds) :
    ∃ first, (first, second) ∈ firsts.zip seconds := by
  induction same with
  | nil => exact absurd member not_mem_nil
  | @cons first other firsts seconds _ _ ih =>
    obtain rfl | later := mem_cons.mp member
    · exact ⟨first, mem_cons_self⟩
    · obtain ⟨found, inside⟩ := ih later
      exact ⟨found, mem_cons_of_mem _ inside⟩

variable {Number : Type}

/-- Two spellings of a peer are loaded one over the other, and the last one stays. -/
def lastKey (keyed : List (List Char × StateEntry Number)) (node : NodeId) : Option (List Char) :=
  (keyed.filter fun entry => entry.2.peer = node).getLast?.map fst

/-- These events of a table are in its snapshot, each with the key that it is loaded under. -/
def savedEvents (keyed : List (List Char × StateEntry Number)) (held : List (Nat × List Char)) :
    List (Nat × List Char) :=
  held.filterMap fun (number, key) =>
    match NodeId.fromHex key with
    | .ok node => if lastKey keyed node = some key then some (number, node.text) else none
    | .error _ => none

/-- The event that opening makes from the line of this one has the same weight. -/
def ReputationEvent.faithful (arith : Arithmetic Number) (event : ReputationEvent Number) : Bool :=
  have := arith.equal
  (event.kindTag.replayedEvent event.peer).map arith.delta = some (arith.delta event)

/-- The event of this number is made again with its weight. -/
def faithfulAt (arith : Arithmetic Number) (history : List (ReputationEvent Number))
    (number : Nat) : Bool :=
  history[number]?.any (·.faithful arith)

/-- These events of a log are applied again with their weight, each with the key that it
changes. -/
def returnedEvents (arith : Arithmetic Number) (history : List (ReputationEvent Number))
    (logged : List Nat) (outcomes : List ReplayOutcome) : List (Nat × List Char) :=
  (logged.zip outcomes).filterMap fun (number, outcome) =>
    match outcome with
    | .counted (some node) =>
      if faithfulAt arith history number then some (number, node.text) else none
    | _ => none

/-- A store with the events that it accepted. An event that is held counts in the score of its
key. -/
structure Trace (Number : Type) where
  store : ReputationStore Number
  history : List (ReputationEvent Number) := []
  held : List (Nat × List Char) := []
  saved : List (Nat × List Char) := []
  logged : List Nat := []

inductive StoreEvent (Number : Type) where
  | apply (event : ReputationEvent Number) (now snapshotNow : Int)
      (reading : ScoreReading Number)
  | flush (now : Int) (reading : ScoreReading Number)
  | reopen (config : ReputationStoreConfig) (now : Int)

namespace Trace

variable (arith : Arithmetic Number) (lineBytes : ReputationDelta Number → Nat)
  (trace : Trace Number)

def appended (event : ReputationEvent Number) (store : ReputationStore Number) : Trace Number :=
  {trace with
    store
    history := trace.history ++ [event]
    held := trace.held ++ [(trace.history.length, event.peer.text)]
    logged := trace.logged ++ [trace.history.length]}

/-- An empty log has no events. -/
def snapshotTaken (reading : ScoreReading Number) : Trace Number :=
  {trace with
    saved := savedEvents (PeerScoreTable.keyed reading trace.store.table) trace.held
    logged := if trace.store.disk.log.isEmpty then [] else trace.logged}

def step : StoreEvent Number → Trace Number
  | .apply event now snapshotNow reading =>
    match trace.store.apply arith lineBytes event now snapshotNow reading with
    | (.error _, store) => {trace with store}
    | (.ok _, store) =>
      if trace.store.snapshotDue then (trace.appended event store).snapshotTaken reading
      else trace.appended event store
  | .flush now reading =>
    {trace with store := trace.store.flush lineBytes now reading}.snapshotTaken reading
  | .reopen config now =>
    match ReputationStore.openAt arith config trace.store.disk now with
    | .error _ => trace
    | .ok opened =>
      {trace with
        store := opened.store
        held := trace.saved ++ returnedEvents arith trace.history trace.logged opened.outcomes}

/-- If the store stopped now, then it could be opened, and each event would be in the snapshot or
would be applied again with its weight, but not both. -/
def Recovered : Prop :=
  ∀ now, ∃ opened,
    ReputationStore.openAt arith trace.store.config trace.store.disk now = .ok opened ∧
      ∀ number < trace.history.length, Xor (number ∈ trace.saved.map fst)
        (number ∈ (returnedEvents arith trace.history trace.logged opened.outcomes).map fst)

end Trace

variable {number : Nat} {name : List Char}

theorem mem_savedEvents_iff {keyed : List (List Char × StateEntry Number)}
    {held : List (Nat × List Char)} :
    (number, name) ∈ savedEvents keyed held ↔
      ∃ key node, (number, key) ∈ held ∧ NodeId.fromHex key = .ok node ∧
        lastKey keyed node = some key ∧ name = node.text := by
  unfold savedEvents
  rw [mem_filterMap]
  constructor
  · rintro ⟨⟨other, key⟩, member, found⟩
    cases known : NodeId.fromHex key with
    | error error => simp [known] at found
    | ok node =>
      by_cases last : lastKey keyed node = some key
      · simp only [known, last, if_true, Option.some.injEq, mk.injEq] at found
        obtain ⟨rfl, rfl⟩ := found
        exact ⟨key, node, member, known, last, rfl⟩
      · simp [known, last] at found
  · rintro ⟨key, node, member, known, last, rfl⟩
    exact ⟨(number, key), member, by simp [known, last]⟩

theorem mem_returnedEvents_iff {arith : Arithmetic Number}
    {history : List (ReputationEvent Number)} {logged : List Nat} {outcomes : List ReplayOutcome} :
    (number, name) ∈ returnedEvents arith history logged outcomes ↔
      ∃ node : NodeId, (number, .counted (some node)) ∈ logged.zip outcomes ∧
        faithfulAt arith history number ∧ name = node.text := by
  unfold returnedEvents
  rw [mem_filterMap]
  constructor
  · rintro ⟨⟨other, outcome⟩, member, found⟩
    cases outcome with
    | skipped => cases found
    | counted applied =>
      cases applied with
      | none => cases found
      | some node =>
        obtain ⟨faithful, same⟩ := Option.ite_none_right_eq_some.mp found
        cases same
        exact ⟨node, member, faithful, rfl⟩
  · rintro ⟨node, member, faithful, rfl⟩
    exact ⟨_, member, if_pos faithful⟩

variable {table : PeerScoreTable Number} {reading : ScoreReading Number}
  {key : List Char} {entry : StateEntry Number}

theorem mem_keyed_iff :
    (key, entry) ∈ keyed reading table ↔
      ∃ value, table.lookup key = some value ∧ NodeId.fromHex key = .ok entry.peer ∧
        entry.score = value.score := by
  unfold keyed
  rw [mem_insertionSort, mem_filterMap]
  constructor
  · rintro ⟨⟨other, value⟩, member, found⟩
    cases known : NodeId.fromHex other with
    | error error => simp [known, Except.toOption] at found
    | ok node =>
      simp only [known, Except.toOption, Option.map_some, Option.some.injEq, mk.injEq] at found
      obtain ⟨rfl, rfl⟩ := found
      have inside := (reading.perm table.entries).mem_iff.mp member
      exact ⟨value, AList.mem_lookup_iff.mpr inside, known, rfl⟩
  · rintro ⟨value, found, known, score⟩
    refine ⟨⟨key, value⟩, ?_, ?_⟩
    · exact (reading.perm table.entries).mem_iff.mpr (AList.mem_lookup_iff.mp found)
    · simp [known, Except.toOption, ← score]

theorem mem_snapshot_iff :
    entry ∈ snapshot reading table ↔
      ∃ key value, table.lookup key = some value ∧ NodeId.fromHex key = .ok entry.peer ∧
        entry.score = value.score := by
  unfold snapshot
  rw [mem_map]
  constructor
  · rintro ⟨⟨key, other⟩, member, rfl⟩
    exact ⟨key, mem_keyed_iff.mp member⟩
  · rintro ⟨key, found⟩
    exact ⟨(key, entry), mem_keyed_iff.mpr found, rfl⟩

variable {node : NodeId}

theorem mem_keyed_of_lastKey (last : lastKey (keyed reading table) node = some key) :
    ∃ entry : StateEntry Number, (key, entry) ∈ keyed reading table ∧ entry.peer = node := by
  obtain ⟨⟨other, entry⟩, found, rfl⟩ := Option.map_eq_some_iff.mp last
  obtain ⟨member, same⟩ := mem_filter.mp (mem_of_getLast? found)
  exact ⟨entry, member, of_decide_eq_true same⟩

/-- When the keys are in small letters, a peer has one spelling. -/
theorem lastKey_of_has (spelled : PeerScoreTable.Spelled table) (has : PeerScoreTable.Has table key)
    (known : NodeId.fromHex key = .ok node) (reading : ScoreReading Number) :
    lastKey (keyed reading table) node = some key := by
  obtain ⟨value, found⟩ := Option.isSome_iff_exists.mp has
  have inside : (key, (⟨node, value.score⟩ : StateEntry Number)) ∈
      keyed reading table := mem_keyed_iff.mpr ⟨value, found, known, rfl⟩
  have chosen : ((keyed reading table).filter fun entry =>
      entry.2.peer = node) ≠ [] :=
    ne_nil_of_mem (mem_filter.mpr ⟨inside, decide_eq_true rfl⟩)
  have last : lastKey (keyed reading table) node =
      some (((keyed reading table).filter fun entry =>
        entry.2.peer = node).getLast chosen).1 := by
    rw [lastKey, getLast?_eq_some_getLast chosen, Option.map_some]
  obtain ⟨entry, member, peer⟩ := mem_keyed_of_lastKey last
  obtain ⟨otherValue, otherFound, otherKnown, -⟩ := mem_keyed_iff.mp member
  rw [last]
  congr 1
  rw [← spelled _ _ otherFound _ otherKnown, peer]
  exact spelled _ _ found _ known

variable {arith : Arithmetic Number} {lineBytes : ReputationDelta Number → Nat}
  {trace : Trace Number}

namespace Trace

/-- The event of this number has a line in the log that would be applied again with its weight. -/
def Returns (arith : Arithmetic Number) (trace : Trace Number) (number : Nat) : Prop :=
  faithfulAt arith trace.history number ∧
    ∃ line, (number, line) ∈ trace.logged.zip trace.store.disk.log ∧
      returned arith trace.store.disk.snapshotTime line

variable {outcomes : List ReplayOutcome}

section

variable (tidy : trace.store.disk.Tidy)
  (tells : List.Forall₂ (Tells arith trace.store.disk.snapshotTime) trace.store.disk.log outcomes)
include tidy tells

theorem mem_returnedEvents_of_tells :
    (number, name) ∈ returnedEvents arith trace.history trace.logged outcomes ↔
      faithfulAt arith trace.history number ∧
        ∃ line, (number, line) ∈ trace.logged.zip trace.store.disk.log ∧
          returned arith trace.store.disk.snapshotTime line ∧ name = line.peer := by
  rw [mem_returnedEvents_iff]
  constructor
  · rintro ⟨node, member, faithful, rfl⟩
    obtain ⟨line, inside, tell⟩ := exists_mem_zip tells member
    obtain ⟨back, known⟩ := (tell node).mp rfl
    refine ⟨faithful, line, inside, back, ?_⟩
    exact tidy.lines line (of_mem_zip inside).2 node known
  · rintro ⟨faithful, line, member, back, rfl⟩
    obtain ⟨outcome, inside, tell⟩ := exists_mem_zip tells.flip member
    have known := (tidy.lines line (of_mem_zip member).2).fromHex back.1.2.2
    have same := (tell ⟨line.peer⟩).mpr ⟨back, known⟩
    subst same
    exact ⟨_, inside, faithful, rfl⟩

theorem mem_map_returnedEvents (number : Nat) :
    number ∈ (returnedEvents arith trace.history trace.logged outcomes).map fst ↔
      trace.Returns arith number := by
  rw [mem_map]
  constructor
  · rintro ⟨⟨_, name⟩, member, rfl⟩
    obtain ⟨faithful, line, inside, back, -⟩ :=
      (mem_returnedEvents_of_tells tidy tells).mp member
    exact ⟨faithful, line, inside, back⟩
  · rintro ⟨faithful, line, inside, back⟩
    exact ⟨(number, line.peer),
      (mem_returnedEvents_of_tells tidy tells).mpr ⟨faithful, line, inside, back, rfl⟩, rfl⟩

end

/-- Recovery can be told from the disk alone. -/
theorem recovered_iff (tidy : trace.store.disk.Tidy) :
    trace.Recovered arith ↔ trace.store.disk.Readable arith ∧
      ∀ number < trace.history.length, Xor (number ∈ trace.saved.map fst)
        (trace.Returns arith number) := by
  constructor
  · intro recovered
    obtain ⟨opened, done, each⟩ := recovered 0
    have readable := readable_of_openAt done
    refine ⟨readable, fun number below => ?_⟩
    obtain ⟨again, done', from_⟩ := openAt_of_readable tidy readable trace.store.config 0
    rw [done] at done'
    cases done'
    have here := each number below
    rwa [mem_map_returnedEvents tidy from_.tells] at here
  · rintro ⟨readable, each⟩ now
    obtain ⟨opened, done, from_⟩ := openAt_of_readable tidy readable trace.store.config now
    refine ⟨opened, done, fun number below => ?_⟩
    rw [mem_map_returnedEvents tidy from_.tells]
    exact each number below

/-- The numbers that follow the parts of the store belong to events of the history. -/
structure Consistent (trace : Trace Number) : Prop where
  spelled : PeerScoreTable.Spelled trace.store.table
  tidy : trace.store.disk.Tidy
  lines : List.Forall₂ (fun number line => ∃ event, trace.history[number]? = some event ∧
    line.peer = event.peer.text) trace.logged trace.store.disk.log
  held_all : ∀ number event, trace.history[number]? = some event →
    (number, event.peer.text) ∈ trace.held
  held_only : ∀ number key, (number, key) ∈ trace.held →
    ∃ event, trace.history[number]? = some event ∧ key = event.peer.text
  has : ∀ event ∈ trace.history, PeerScoreTable.Has trace.store.table event.peer.text
  saved : ∀ number key, (number, key) ∈ trace.saved →
    ∃ event, trace.history[number]? = some event ∧ key = event.peer.text ∧
      ∃ state, trace.store.disk.snapshot = some state ∧ ∃ entry ∈ state.entries,
        entry.peer.text = key

namespace Consistent

theorem returns_lt (consistent : trace.Consistent) (returns : trace.Returns arith number) :
    number < trace.history.length := by
  obtain ⟨-, line, member, -⟩ := returns
  obtain ⟨event, found, -⟩ := List.forall₂_zip consistent.lines member
  exact (List.getElem?_eq_some_iff.mp found).1

theorem saved_lt (consistent : trace.Consistent) (member : number ∈ trace.saved.map fst) :
    number < trace.history.length := by
  obtain ⟨⟨_, key⟩, inside, rfl⟩ := List.mem_map.mp member
  obtain ⟨event, found, -⟩ := consistent.saved _ key inside
  exact (List.getElem?_eq_some_iff.mp found).1

theorem normal (consistent : trace.Consistent) {event : ReputationEvent Number}
    (member : event ∈ trace.history) : Normal event.peer.text := by
  obtain ⟨value, found⟩ := Option.isSome_iff_exists.mp (consistent.has event member)
  exact consistent.spelled _ value found

end Consistent

/-- A fresh store has nothing. -/
theorem consistent_fresh {config : ReputationStoreConfig} :
    Consistent (⟨{config}, [], [], [], []⟩ : Trace Number) where
  spelled := spelled_empty
  tidy := ⟨fun state stored => absurd stored.symm (Option.some_ne_none state), forall_mem_nil _⟩
  lines := .nil
  held_all := fun number event found => by cases found
  held_only := fun number key member => absurd member not_mem_nil
  has := forall_mem_nil _
  saved := fun number key member => absurd member not_mem_nil

end Trace
end A3Net.Reputation
