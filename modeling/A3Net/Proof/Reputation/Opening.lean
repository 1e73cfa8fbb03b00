/-
The snapshot must have finite scores, and which lines of the log are applied again does not depend
on the scores.
-/

import A3Net.Construction.Reputation.Store

namespace A3Net.Reputation

open PeerScoreTable ReputationDelta List Option ReputationStore

/-- A text that is a node identifier is written in small letters. -/
def Normal (text : List Char) : Prop := ∀ node, NodeId.fromHex text = .ok node → node.text = text

instance (text : List Char) : Decidable (Normal text) :=
  match found : NodeId.fromHex text with
  | .ok node =>
    decidable_of_iff (node.text = text) (by
      constructor
      · intro same other known
        rw [found] at known
        cases known
        exact same
      · intro normal
        exact normal node found)
  | .error _ => isTrue (fun node known => by rw [found] at known; cases known)

def Valid (text : List Char) : Prop := (NodeId.fromHex text).isOk = true
deriving Decidable

theorem Normal.fromHex {text : List Char} (normal : Normal text) (valid : Valid text) :
    NodeId.fromHex text = .ok ⟨text⟩ := by
  unfold Valid at valid
  cases found : NodeId.fromHex text with
  | error error =>
    rw [found] at valid
    cases valid
  | ok node =>
    have same := normal node found
    rw [← same]

variable {Number : Type} (arith : Arithmetic Number)

def InRange (score : Number) : Prop :=
  arith.isFinite score = true ∧ arith.clamp score = score

theorem inRange_clamp {score : Number} (finite : arith.isFinite (arith.clamp score) = true) :
    InRange arith (arith.clamp score) :=
  ⟨finite, arith.clamp_clamp score⟩

theorem InRange.finite_sub {first second : Number} (firstIn : InRange arith first)
    (secondIn : InRange arith second) :
    arith.isFinite (arith.sub first second) = true := by
  have finite := arith.finite_sub first second firstIn.1 secondIn.1
  rwa [firstIn.2, secondIn.2] at finite

variable {value : PeerScore Number}

namespace PeerScoreTable

variable (table : PeerScoreTable Number)

def Spelled : Prop :=
  ∀ key entry, table.lookup key = some entry → Normal key

def Bounded : Prop :=
  ∀ key entry, table.lookup key = some entry → InRange arith entry.score

def Has (key : List Char) : Prop := (table.lookup key).isSome = true

variable {arith table} {key : List Char} {other : List Char}

theorem lookup_insert_cases {entry : PeerScore Number}
    (found : (table.insert key value).lookup other = some entry) :
    (other = key ∧ entry = value) ∨ table.lookup other = some entry := by
  rw [Table.lookup_insert_eq] at found
  split at found
  · next same => exact .inl ⟨same, (Option.some.inj found).symm⟩
  · exact .inr found

theorem Spelled.insert (spelled : Spelled table) (normal : Normal key) (value : PeerScore Number) :
    Spelled (table.insert key value) := by
  intro other entry found
  obtain ⟨rfl, -⟩ | found := lookup_insert_cases found
  · exact normal
  · exact spelled other entry found

theorem Bounded.insert (bounded : Bounded arith table) (within : InRange arith value.score) :
    Bounded arith (table.insert key value) := by
  intro other entry found
  obtain ⟨-, rfl⟩ | found := lookup_insert_cases found
  · exact within
  · exact bounded other entry found

theorem Has.insert (has : Has table other) (key : List Char) (value : PeerScore Number) :
    Has (table.insert key value) other := by
  rw [Has, Table.lookup_insert_eq]
  split
  · rfl
  · exact has

theorem has_insert (table : PeerScoreTable Number) : Has (table.insert key value) key := by
  rw [Has, Table.lookup_insert_eq, if_pos rfl]
  rfl

theorem spelled_empty : Spelled (∅ : PeerScoreTable Number) := by
  intro key entry found
  cases found

theorem bounded_empty : Bounded arith (∅ : PeerScoreTable Number) := by
  intro key entry found
  cases found

theorem Bounded.entry (bounded : Bounded arith table) (key : List Char) (now : Int) :
    InRange arith (PeerScoreTable.entry arith table key now).score := by
  unfold PeerScoreTable.entry
  cases found : table.lookup key with
  | none => exact inRange_clamp arith (arith.finite_clamp _ arith.finite_zero)
  | some entry => exact bounded key entry found

end PeerScoreTable

/-- This is what an event leaves that is applied. -/
structure Applied (table : PeerScoreTable Number) (event : ReputationEvent Number) (now : Int)
    (delta : ReputationDelta Number) (after : PeerScoreTable Number) : Prop where
  samePeer : delta.peer = event.peer.text
  sameKind : delta.event = event.kindTag
  before : delta.scoreBefore = (PeerScoreTable.entry arith table event.peer.text now).score
  difference : delta.delta = arith.sub delta.scoreAfter delta.scoreBefore
  time : delta.tsUnix = now
  clamped : arith.clamp delta.scoreAfter = delta.scoreAfter
  finite : event.kindTag ≠ .absoluteRestore → arith.isFinite delta.scoreAfter = true
  inserted : ∃ value : PeerScore Number, value.score = delta.scoreAfter ∧
    after = table.insert event.peer.text value

variable (table : PeerScoreTable Number) (event : ReputationEvent Number) {count : Option UInt64}

theorem record_applied {after : Number} {now : Int} (clamped : arith.clamp after = after)
    (finite : event.kindTag ≠ .absoluteRestore → arith.isFinite after = true) :
    Applied arith table event now
      (record arith table event after count now).1
      (record arith table event after count now).2 where
  samePeer := rfl
  sameKind := rfl
  before := rfl
  difference := rfl
  time := rfl
  clamped := clamped
  finite := finite
  inserted := ⟨_, by unfold PeerScore.pushDelta; split <;> rfl, rfl⟩

theorem applyWithCount_of_ne {event : ReputationEvent Number}
    (other : event.kindTag ≠ .absoluteRestore) (count : Option UInt64) (now : Int) :
    applyWithCount arith table event count now =
      let entry := entry arith table event.peer.text now
      let after := arith.clamp (arith.add entry.score (arith.delta event))
      if !arith.isFinite after then
        (.error (.nonFiniteScore event.peer.text event.kindTag), table.insert event.peer.text entry)
      else
        (.ok (record arith table event after count now).1,
          (record arith table event after count now).2) := by
  cases event with
  | absoluteRestore peer score reason => exact absurd rfl other
  | _ => rfl

/-- An event is applied, or its peer has the same score as before. -/
theorem applyWithCount_cases {now : Int} :
    (∃ delta after, applyWithCount arith table event count now =
        (.ok delta, after) ∧ Applied arith table event now delta after) ∨
      (∃ error, applyWithCount arith table event count now =
          (.error error, table.insert event.peer.text (entry arith table event.peer.text now)) ∧
        arith.isFinite (arith.clamp (arith.add
          (entry arith table event.peer.text now).score
          (arith.delta event))) = false) := by
  by_cases restored : event.kindTag = .absoluteRestore
  · left
    cases event with
    | absoluteRestore peer score reason =>
      exact ⟨_, _, rfl, record_applied arith _ _
        (arith.clamp_clamp score) (fun other => absurd rfl other)⟩
    | _ => cases restored
  · rw [applyWithCount_of_ne arith table restored]
    cases finite : arith.isFinite (arith.clamp (arith.add
        (entry arith table event.peer.text now).score
        (arith.delta event))) with
    | true =>
      left
      simp only [finite, Bool.not_true, Bool.false_eq_true, if_false]
      exact ⟨_, _, rfl, record_applied arith table event (arith.clamp_clamp _) (fun _ => finite)⟩
    | false =>
      right
      simp only [finite, Bool.not_false, if_true]
      exact ⟨_, rfl, trivial⟩

variable {node : NodeId}

section Lines

namespace ReputationDelta

variable (line : ReputationDelta Number)

/-- Opening makes a new event from such a line. -/
def IsMessage : Prop :=
  line.event = .validMessage ∨ line.event = .invalidMessage
deriving Decidable

/-- The numbers of such a line can be read again. -/
def Readable : Prop :=
  arith.isFinite line.scoreBefore = true ∧ arith.isFinite line.scoreAfter = true ∧
    arith.isFinite line.delta = true
deriving Decidable

/-- Opening applies such a line again when it is newer than the snapshot. -/
def Replayable : Prop :=
  line.Readable arith ∧ line.IsMessage ∧ Valid line.peer
deriving Decidable

variable {arith line}

theorem readBack_some_iff (line : ReputationDelta Number) :
    (line.readBack arith).isSome = true ↔ line.Readable arith := by
  unfold readBack Readable
  rw [← arith.readBack_isSome, ← arith.readBack_isSome, ← arith.readBack_isSome]
  cases arith.readBack line.scoreBefore with
  | none => simp
  | some before =>
    cases arith.readBack line.scoreAfter with
    | none => simp
    | some after => cases arith.readBack line.delta <;> simp

/-- Only the numbers of a line change when it is read. -/
theorem readBack_eq {read : ReputationDelta Number} (found : line.readBack arith = some read) :
    read.peer = line.peer ∧ read.event = line.event ∧ read.tsUnix = line.tsUnix := by
  unfold readBack at found
  simp only [bind_eq_bind, bind_eq_some_iff, Option.some.injEq] at found
  obtain ⟨_, _, _, _, _, _, rfl⟩ := found
  exact ⟨rfl, rfl, rfl⟩

variable (arith) in
theorem replayedEvent_some {event : ReputationEvent Number}
    (found : line.event.replayedEvent node = some event) :
    line.IsMessage ∧ event.peer = node ∧ event.kindTag ≠ .absoluteRestore ∧
      arith.isFinite (arith.delta event) = true := by
  unfold EventKind.replayedEvent at found
  split at found
  · next kind =>
    cases found
    exact ⟨.inl kind, rfl, EventKind.noConfusion, arith.finite_valid node none 0⟩
  · next kind =>
    cases found
    exact ⟨.inr kind, rfl, EventKind.noConfusion, arith.finite_invalid node none .other⟩
  · cases found

theorem replayedEvent_none
    (missing : (line.event.replayedEvent node : Option (ReputationEvent Number)) = none) :
    ¬ line.IsMessage := by
  unfold EventKind.replayedEvent at missing
  split at missing
  · cases missing
  · cases missing
  · next notValid notInvalid =>
    rintro (kind | kind)
    · exact notValid kind
    · exact notInvalid kind

end ReputationDelta

/-- These are the lines that opening applies again. -/
def returned (snapshotTs : Int) (line : ReputationDelta Number) : Prop :=
  line.Replayable arith ∧ snapshotTs < line.tsUnix

variable {arith} {table} {line : ReputationDelta Number} {event}

/-- A message is never refused when the scores are in range. -/
theorem applyWithCount_message (bounded : Bounded arith table)
    (finite : arith.isFinite (arith.delta event) = true)
    (other : event.kindTag ≠ .absoluteRestore) (count : Option UInt64) (now : Int) :
    ∃ delta value, InRange arith value.score ∧
      applyWithCount arith table event count now =
        (.ok delta, table.insert event.peer.text value) := by
  obtain ⟨delta, after, done, applied⟩ | ⟨error, -, wild⟩ :=
    applyWithCount_cases arith table event
  · obtain ⟨value, score, rfl⟩ := applied.inserted
    refine ⟨delta, value, ?_, done⟩
    rw [score]
    exact ⟨applied.finite other, applied.clamped⟩
  · have start := (bounded.entry event.peer.text now).1
    rw [arith.finite_add _ _ start finite] at wild
    cases wild

/-- A line that does not return changes nothing. -/
theorem replayLine_left {snapshotTs : Int} (kept : ¬ returned arith snapshotTs line) {now : Int} :
    (∀ node, (replayLine arith snapshotTs now table line).1 ≠ .counted (some node)) ∧
      (replayLine arith snapshotTs now table line).2 = table := by
  unfold replayLine
  cases read : line.readBack arith with
  | none => exact ⟨fun node => by simp, rfl⟩
  | some delta =>
    obtain ⟨samePeer, sameKind, sameTime⟩ := readBack_eq read
    simp only [samePeer, sameTime]
    split
    · exact ⟨fun node => by simp, rfl⟩
    next newer =>
    cases found : NodeId.fromHex line.peer with
    | error error => exact ⟨fun other => by simp, rfl⟩
    | ok node =>
      cases made : (delta.event.replayedEvent node : Option (ReputationEvent Number)) with
      | none =>
        simp only [made]
        exact ⟨fun other => by simp, trivial⟩
      | some event =>
        have msg := (replayedEvent_some arith made).1
        rw [ReputationDelta.IsMessage, sameKind] at msg
        refine absurd ⟨⟨?_, msg, ?_⟩, lt_of_not_ge newer⟩ kept
        · exact (readBack_some_iff line).mp (isSome_of_eq_some read)
        · rw [Valid, found]
          rfl

/-- A line that returns changes the score of its peer. -/
theorem replayLine_returned {snapshotTs : Int} (bounded : Bounded arith table)
    (back : returned arith snapshotTs line) (found : NodeId.fromHex line.peer = .ok node)
    {now : Int} :
    ∃ value, InRange arith value.score ∧
      replayLine arith snapshotTs now table line =
        (.counted (some node), table.insert node.text value) := by
  obtain ⟨⟨readable, msg, -⟩, newer⟩ := back
  obtain ⟨delta, read⟩ := isSome_iff_exists.mp ((readBack_some_iff line).mpr readable)
  obtain ⟨samePeer, sameKind, sameTime⟩ := readBack_eq read
  obtain ⟨event, made⟩ : ∃ event : ReputationEvent Number,
      delta.event.replayedEvent node = some event := by
    apply ne_none_iff_exists'.mp
    intro missing
    apply replayedEvent_none missing
    rwa [ReputationDelta.IsMessage, sameKind]
  obtain ⟨-, peer, other, finite⟩ := replayedEvent_some arith made
  obtain ⟨recorded, value, within, done⟩ := applyWithCount_message bounded finite other
    (some delta.count) now
  rw [peer] at done
  refine ⟨value, within, ?_⟩
  simp only [replayLine, read, samePeer, sameTime, not_le.mpr newer, if_false, found, made, done]
  rfl

/-- A table that only grew has the old keys and perhaps new ones. -/
structure Grown (arith : Arithmetic Number) (table after : PeerScoreTable Number) : Prop where
  bounded : PeerScoreTable.Bounded arith after
  spelled : PeerScoreTable.Spelled after
  has : ∀ key, PeerScoreTable.Has table key → PeerScoreTable.Has after key

theorem Grown.refl (bounded : Bounded arith table)
    (spelled : Spelled table) : Grown arith table table :=
  ⟨bounded, spelled, fun _ has => has⟩

variable {middle : PeerScoreTable Number}

theorem Grown.trans {after : PeerScoreTable Number} (first : Grown arith table middle)
    (second : Grown arith middle after) : Grown arith table after :=
  ⟨second.bounded, second.spelled, fun key has => second.has key (first.has key has)⟩

theorem Grown.insert (grown : Grown arith table middle) {key : List Char} (normal : Normal key)
    (within : InRange arith value.score) : Grown arith table (middle.insert key value) :=
  ⟨grown.bounded.insert within, grown.spelled.insert normal value,
    fun other has => (grown.has other has).insert key value⟩

/-- The outcome of a line tells whether it returned. -/
def Tells (arith : Arithmetic Number) (snapshotTs : Int) (line : ReputationDelta Number)
    (outcome : ReplayOutcome) : Prop :=
  ∀ node, outcome = .counted (some node) ↔
    returned arith snapshotTs line ∧ NodeId.fromHex line.peer = .ok node

variable (bounded : Bounded arith table) (spelled : Spelled table) {snapshotTs : Int} (now : Int)

include bounded spelled

theorem replayLine_spec (normal : Normal line.peer) :
    Tells arith snapshotTs line (replayLine arith snapshotTs now table line).1 ∧
      Grown arith table (replayLine arith snapshotTs now table line).2 ∧
      (returned arith snapshotTs line →
        Has (replayLine arith snapshotTs now table line).2 line.peer) := by
  by_cases back : returned arith snapshotTs line
  · have found := normal.fromHex back.1.2.2
    obtain ⟨value, within, done⟩ := replayLine_returned bounded back found
    rw [done]
    refine ⟨fun node => ?_, (Grown.refl bounded spelled).insert normal within,
      fun _ => has_insert table⟩
    rw [found]
    simp [back]
  · obtain ⟨out, same⟩ := replayLine_left back
    rw [same]
    exact ⟨fun node => ⟨fun applied => absurd applied (out node), fun both => absurd both.1 back⟩,
      Grown.refl bounded spelled, fun returns => absurd returns back⟩

/-- The lines are read one after the other, and each keeps the scores in range for the next. -/
theorem replayDeltas_spec {lines : List (ReputationDelta Number)}
    (normal : ∀ line ∈ lines, Normal line.peer) :
    List.Forall₂ (Tells arith snapshotTs) lines
        (replayDeltas arith snapshotTs now table lines).1 ∧
      Grown arith table (replayDeltas arith snapshotTs now table lines).2 ∧
      ∀ line ∈ lines, returned arith snapshotTs line →
        Has (replayDeltas arith snapshotTs now table lines).2 line.peer := by
  induction lines generalizing table with
  | nil => exact ⟨.nil, Grown.refl bounded spelled, forall_mem_nil _⟩
  | cons line rest ih =>
    obtain ⟨first, more⟩ := forall_mem_cons.mp normal
    obtain ⟨tells, grown, here⟩ := replayLine_spec bounded spelled now first
    obtain ⟨others, later, there⟩ := ih grown.bounded grown.spelled more
    exact ⟨.cons tells others, grown.trans later,
      forall_mem_cons.mpr ⟨fun back => later.has line.peer (here back), there⟩⟩

end Lines

/-- A node identifier that was read from a text is read again as itself. -/
def Canonical (node : NodeId) : Prop := NodeId.fromHex node.text = .ok node

/-- Opening compares the lines with this time. -/
def Disk.snapshotTime (disk : Disk Number) : Int :=
  match disk.snapshot with
  | none => minTs
  | some state =>
    if state.entries.any fun entry => (NodeId.fromHex entry.peer.text).isOk then
      max minTs state.lastTsUnix
    else minTs

def Disk.Readable (disk : Disk Number) : Prop :=
  ∀ state, disk.snapshot = some state → ∀ entry ∈ state.entries, arith.isFinite entry.score = true

variable {arith} {entry : StateEntry Number}

theorem finite_of_readBack {read : StateEntry Number} (found : entry.readBack arith = some read) :
    arith.isFinite entry.score = true ∧ read.peer = entry.peer ∧
      arith.isFinite read.score = true := by
  obtain ⟨score, back, rfl⟩ := map_eq_some_iff.mp found
  refine ⟨?_, rfl, arith.finite_readBack _ _ back⟩
  rw [← arith.readBack_isSome, back]
  rfl

variable {entries read : List (StateEntry Number)}

/-- The entries are read when all their scores are finite. -/
theorem readEntries_of_finite (finite : ∀ entry ∈ entries, arith.isFinite entry.score = true) :
    ∃ read, entries.mapM (StateEntry.readBack arith) = some read := by
  induction entries with
  | nil => exact ⟨[], rfl⟩
  | cons entry rest ih =>
    obtain ⟨here, more⟩ := forall_mem_cons.mp finite
    obtain ⟨others, there⟩ := ih more
    rw [← arith.readBack_isSome] at here
    obtain ⟨score, back⟩ := isSome_iff_exists.mp here
    refine ⟨{entry with score} :: others, ?_⟩
    simp only [mapM_cons, there, StateEntry.readBack, back]
    rfl

theorem readEntries_forall₂ (found : entries.mapM (StateEntry.readBack arith) = some read) :
    List.Forall₂ (fun entry readEntry => entry.readBack arith = some readEntry) entries read := by
  induction entries generalizing read with
  | nil =>
    cases found
    exact .nil
  | cons entry rest ih =>
    simp only [mapM_cons, bind_eq_bind, bind_eq_some_iff] at found
    obtain ⟨first, here, others, there, done⟩ := found
    cases done
    exact .cons here (ih there)

theorem Canonical.normal (canonical : Canonical node) : Normal node.text := by
  intro other found
  rw [Canonical, found] at canonical
  cases canonical
  rfl

theorem loadEntry_spec {read : StateEntry Number} (back : entry.readBack arith = some read)
    (canonical : Canonical entry.peer) {lastTs now : Int} {loaded : Int × PeerScoreTable Number}
    (bounded : Bounded arith loaded.2) (spelled : Spelled loaded.2) :
    (loadEntry arith lastTs now loaded read).1 = max loaded.1 lastTs ∧
      Grown arith loaded.2 (loadEntry arith lastTs now loaded read).2 ∧
      Has (loadEntry arith lastTs now loaded read).2 entry.peer.text := by
  obtain ⟨-, peer, finite⟩ := finite_of_readBack back
  have valid : NodeId.fromHex read.peer.text = .ok entry.peer := by
    rw [peer]
    exact canonical
  simp only [loadEntry, valid]
  refine ⟨trivial, ?_, has_insert _⟩
  exact (Grown.refl bounded spelled).insert canonical.normal
    (inRange_clamp arith (arith.finite_clamp _ finite))

/-- Loading has one fold step for each entry, and each puts the key of its entry into the table. -/
theorem loadEntries_spec
    (same : List.Forall₂ (fun entry readEntry => entry.readBack arith = some readEntry)
      entries read) (canonical : ∀ entry ∈ entries, Canonical entry.peer) {lastTs now : Int}
    (loaded : Int × PeerScoreTable Number) (bounded : Bounded arith loaded.2)
    (spelled : Spelled loaded.2) :
    (read.foldl (loadEntry arith lastTs now) loaded).1 =
        (if entries.any fun entry => (NodeId.fromHex entry.peer.text).isOk then
          max loaded.1 lastTs else loaded.1) ∧
      Grown arith loaded.2 (read.foldl (loadEntry arith lastTs now) loaded).2 ∧
      ∀ entry ∈ entries,
        Has (read.foldl (loadEntry arith lastTs now) loaded).2 entry.peer.text := by
  induction same generalizing loaded with
  | nil => exact ⟨rfl, Grown.refl bounded spelled, forall_mem_nil _⟩
  | @cons entry readEntry entries read back _ ih =>
    obtain ⟨here, more⟩ := forall_mem_cons.mp canonical
    obtain ⟨first, grown, present⟩ := loadEntry_spec back here bounded spelled
    obtain ⟨time, later, has⟩ := ih more (loadEntry arith lastTs now loaded readEntry)
      grown.bounded grown.spelled
    rw [foldl_cons]
    refine ⟨?_, grown.trans later, forall_mem_cons.mpr ⟨later.has _ present, has⟩⟩
    rw [Canonical] at here
    rw [time, first]
    simp [here, Except.isOk, Except.toBool]

/-- The names on the disk are in small letters. -/
structure Disk.Tidy (disk : Disk Number) : Prop where
  entries : ∀ state, disk.snapshot = some state → ∀ entry ∈ state.entries, Canonical entry.peer
  lines : ∀ line ∈ disk.log, Normal line.peer

/-- This is what opening a tidy disk gives. -/
structure OpenedFrom (arith : Arithmetic Number) (disk : Disk Number)
    (opened : Opened Number) : Prop where
  sameDisk : opened.store.disk = disk
  tells : List.Forall₂ (Tells arith disk.snapshotTime) disk.log opened.outcomes
  bounded : PeerScoreTable.Bounded arith opened.store.table
  spelled : PeerScoreTable.Spelled opened.store.table
  hasEntry : ∀ state, disk.snapshot = some state → ∀ entry ∈ state.entries,
    PeerScoreTable.Has opened.store.table entry.peer.text
  hasLine : ∀ line ∈ disk.log, returned arith disk.snapshotTime line →
    PeerScoreTable.Has opened.store.table line.peer

theorem finite_of_readEntries
    (same : List.Forall₂ (fun entry readEntry => entry.readBack arith = some readEntry)
      entries read) : ∀ entry ∈ entries, arith.isFinite entry.score = true := by
  induction same with
  | nil => exact forall_mem_nil _
  | cons back _ ih => exact forall_mem_cons.mpr ⟨(finite_of_readBack back).1, ih⟩

variable {disk : Disk Number}

/-- A snapshot that cannot be read stops the store from opening. -/
theorem readable_of_openAt {config : ReputationStoreConfig} {now : Int} {opened : Opened Number}
    (done : openAt arith config disk now = .ok opened) :
    disk.Readable arith := by
  intro state stored
  simp only [openAt, Disk.load, stored, loadSnapshot, StateFile.readBack] at done
  cases found : state.entries.mapM (StateEntry.readBack arith) with
  | none =>
    rw [found] at done
    cases done
  | some read => exact finite_of_readEntries (readEntries_forall₂ found)

/-- The table that is loaded first. -/
theorem load_spec (tidy : disk.Tidy) (readable : disk.Readable arith) {now : Int} :
    ∃ loaded, disk.load arith now = .ok (disk.snapshotTime, loaded) ∧
      Bounded arith loaded ∧ Spelled loaded ∧
      ∀ state, disk.snapshot = some state → ∀ entry ∈ state.entries,
        Has loaded entry.peer.text := by
  unfold Disk.load Disk.snapshotTime
  cases stored : disk.snapshot with
  | none =>
    exact ⟨∅, rfl, bounded_empty, spelled_empty, fun state found => by cases found⟩
  | some state =>
    obtain ⟨read, found⟩ := readEntries_of_finite (readable state stored)
    obtain ⟨time, grown, has⟩ := loadEntries_spec (readEntries_forall₂ found)
      (tidy.entries state stored) (minTs, ∅)
      bounded_empty spelled_empty
    refine ⟨_, ?_, grown.bounded, grown.spelled, ?_⟩
    · simp only [loadSnapshot, StateFile.readBack, found, map_some]
      rw [← time]
    · intro other same
      cases same
      exact has

theorem openAt_of_readable (tidy : disk.Tidy) (readable : disk.Readable arith)
    (config : ReputationStoreConfig) (now : Int) :
    ∃ opened, openAt arith config disk now = .ok opened ∧ OpenedFrom arith disk opened := by
  obtain ⟨loaded, found, bounded, spelled, hasEntry⟩ := load_spec tidy readable
  obtain ⟨tells, grown, hasLine⟩ :=
    replayDeltas_spec bounded spelled now tidy.lines
  simp only [openAt]
  rw [found]
  exact ⟨_, rfl, {
    sameDisk := rfl
    tells := tells
    bounded := grown.bounded
    spelled := grown.spelled
    hasEntry := fun state stored entry member =>
      grown.has _ (hasEntry state stored entry member)
    hasLine := hasLine }⟩

end A3Net.Reputation
