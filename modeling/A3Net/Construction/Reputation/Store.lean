/-
A log has the changes of the scores, and a snapshot has the scores themselves. The chain digest of
the snapshot is left out, because nothing reads it.
-/

import A3Net.Construction.Reputation.Score
import Mathlib.Data.List.Sort

namespace A3Net.Reputation

open Machine

structure ReputationStoreConfig where
  snapshotEvery : Nat := 256
  maxLogBytes : Nat := 4 * 1024 * 1024

structure StateEntry (Number : Type) where
  peer : NodeId
  score : Number

structure StateFile (Number : Type) where
  lastTsUnix : Int
  entries : List (StateEntry Number)

structure Disk (Number : Type) where
  snapshot : Option (StateFile Number) := none
  log : List (ReputationDelta Number) := []

structure ReputationStore (Number : Type) where
  config : ReputationStoreConfig
  table : PeerScoreTable Number := ∅
  pendingSinceSnapshot : Nat := 0
  disk : Disk Number := {}

/-- No time is smaller. -/
def minTs : Int := -9223372036854775808

/-- The shards of a table are read in some order. -/
abbrev ScoreReading (Number : Type) := Reading (Σ _ : List Char, PeerScore Number)

variable {Number : Type} (reading : ScoreReading Number)

/-- These are the entries of the snapshot with the keys that they come from. A key that is not
hexadecimal is left out. The shards are read in some order, and the entries are then sorted. -/
def PeerScoreTable.keyed (table : PeerScoreTable Number) : List (List Char × StateEntry Number) :=
  ((reading.arrange table.entries).filterMap fun entry =>
    (NodeId.fromHex entry.1).toOption.map fun node =>
      (entry.1, ⟨node, entry.2.score⟩)).insertionSort
        fun first second => textLe first.2.peer.text second.2.peer.text = true

def PeerScoreTable.snapshot (table : PeerScoreTable Number) : List (StateEntry Number) :=
  (PeerScoreTable.keyed reading table).map Prod.snd

/-- The JSON library tells how long a line of the log is. -/
def logBytes (lineBytes : ReputationDelta Number → Nat) (log : List (ReputationDelta Number)) :
    Nat :=
  (log.map lineBytes).sum

namespace ReputationStore

variable (lineBytes : ReputationDelta Number → Nat) (store : ReputationStore Number)

/-- A log that is too long is emptied. -/
def maybeRotateLog : ReputationStore Number :=
  if logBytes lineBytes store.disk.log ≤ store.config.maxLogBytes then store
  else {store with disk := {store.disk with log := []}}

/-- The snapshot has the time at which it is taken. -/
def writeSnapshot (now : Int) (reading : ScoreReading Number) :
    ReputationStore Number :=
  let written := {store with
    pendingSinceSnapshot := 0
    disk := {store.disk with snapshot := some ⟨now, PeerScoreTable.snapshot reading store.table⟩}}
  if 0 < store.config.maxLogBytes then written.maybeRotateLog lineBytes else written

def flush (now : Int) (reading : ScoreReading Number) :
    ReputationStore Number :=
  store.writeSnapshot lineBytes now reading

def appendDelta (delta : ReputationDelta Number) : ReputationStore Number :=
  {store with disk := {store.disk with log := store.disk.log ++ [delta]}}

end ReputationStore

variable (arith : Arithmetic Number) (lineBytes : ReputationDelta Number → Nat)
  (store : ReputationStore Number)

/-- The next change makes enough of them for a snapshot. -/
def ReputationStore.snapshotDue : Bool :=
  0 < store.config.snapshotEvery && store.config.snapshotEvery ≤ store.pendingSinceSnapshot + 1

/-- The clock is read again for a snapshot. -/
def ReputationStore.apply (event : ReputationEvent Number)
    (now snapshotNow : Int) (reading : ScoreReading Number) :
    Except ReputationError (ReputationDelta Number) × ReputationStore Number :=
  match PeerScoreTable.applyWithCount arith store.table event none now with
  | (.error error, table) => (.error error, {store with table})
  | (.ok delta, table) =>
    let appended := {store with
      table, pendingSinceSnapshot := store.pendingSinceSnapshot + 1}.appendDelta delta
    (.ok delta,
      if store.snapshotDue then appended.writeSnapshot lineBytes snapshotNow reading
      else appended)

def StateEntry.readBack (entry : StateEntry Number) : Option (StateEntry Number) :=
  (arith.readBack entry.score).map fun score => {entry with score}

variable (state : StateFile Number)

/-- A number that cannot be read back spoils its file. -/
def StateFile.readBack : Option (StateFile Number) :=
  (state.entries.mapM (StateEntry.readBack arith)).map fun entries => {state with entries}

def loadEntry (lastTsUnix now : Int) (loaded : Int × PeerScoreTable Number)
    (entry : StateEntry Number) : Int × PeerScoreTable Number :=
  match NodeId.fromHex entry.peer.text with
  | .ok node =>
    (max loaded.1 lastTsUnix, PeerScoreTable.setScore arith loaded.2 node entry.score now)
  | .error _ => loaded

/-- A snapshot without entries counts as one without a time. -/
def loadSnapshot (now : Int) :
    Except ReputationError (Int × PeerScoreTable Number) :=
  match state.readBack arith with
  | none => .error .malformedSnapshot
  | some state => .ok (state.entries.foldl (loadEntry arith state.lastTsUnix now) (minTs, ∅))

/-- Without a snapshot the table starts empty. -/
def Disk.load (disk : Disk Number) (now : Int) :
    Except ReputationError (Int × PeerScoreTable Number) :=
  match disk.snapshot with
  | some state => loadSnapshot arith state now
  | none => .ok (minTs, ∅)

def ReputationDelta.readBack (line : ReputationDelta Number) : Option (ReputationDelta Number) := do
  let scoreBefore ← arith.readBack line.scoreBefore
  let scoreAfter ← arith.readBack line.scoreAfter
  let delta ← arith.readBack line.delta
  some {line with scoreBefore, scoreAfter, delta}

/-- Two kinds of events are made again, with new details. -/
def EventKind.replayedEvent (node : NodeId) : EventKind → Option (ReputationEvent Number)
  | .validMessage => some (.validMessage node none 0)
  | .invalidMessage => some (.invalidMessage node none .other)
  | _ => none

/-- A line is passed over, or it is counted, and then an event of a peer may have been applied. -/
inductive ReplayOutcome where
  | skipped
  | counted (applied : Option NodeId)
deriving DecidableEq

def replayLine (snapshotTs now : Int) (table : PeerScoreTable Number)
    (line : ReputationDelta Number) : ReplayOutcome × PeerScoreTable Number :=
  match line.readBack arith with
  | none => (.skipped, table)
  | some delta =>
    if delta.tsUnix ≤ snapshotTs then (.skipped, table)
    else
      match NodeId.fromHex delta.peer with
      | .error _ => (.counted none, table)
      | .ok node =>
        match delta.event.replayedEvent node with
        | none => (.counted none, table)
        | some event =>
          let (result, applied) :=
            PeerScoreTable.applyWithCount arith table event (some delta.count) now
          (.counted (if result.isOk then some node else none), applied)

def replayDeltas (snapshotTs now : Int) :
    PeerScoreTable Number → List (ReputationDelta Number) →
      List ReplayOutcome × PeerScoreTable Number
  | table, [] => ([], table)
  | table, line :: rest =>
    let (outcome, applied) := replayLine arith snapshotTs now table line
    let (outcomes, final) := replayDeltas snapshotTs now applied rest
    (outcome :: outcomes, final)

/-- An opened store comes with what happened to the lines of its log. -/
structure Opened (Number : Type) where
  snapshotTs : Int
  outcomes : List ReplayOutcome
  store : ReputationStore Number

/-- Opening writes no snapshot. -/
def ReputationStore.openAt (config : ReputationStoreConfig) (disk : Disk Number) (now : Int) :
    Except ReputationError (Opened Number) := do
  let (snapshotTs, loaded) ← disk.load arith now
  let (outcomes, table) := replayDeltas arith snapshotTs now loaded disk.log
  let pending := (outcomes.filter (· ≠ .skipped)).length
  .ok ⟨snapshotTs, outcomes, ⟨config, table, pending, disk⟩⟩

end A3Net.Reputation
