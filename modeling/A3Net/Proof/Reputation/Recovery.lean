/-
A snapshot and a log share the events by the second of the clock, and the log can bring back only
two kinds of events.
-/

import A3Net.Proof.Reputation.EventNumbers

namespace A3Net.Reputation

open Machine List PeerScoreTable ReputationStore Trace

variable {Number : Type}

namespace Trace

variable (arith : Arithmetic Number) (lineBytes : ReputationDelta Number → Nat)

/-- No event of the log would be applied again with its weight. -/
def Settled (trace : Trace Number) : Prop :=
  ∀ pair ∈ trace.logged.zip trace.store.disk.log, faithfulAt arith trace.history pair.1 →
    pair.2.Replayable arith → pair.2.tsUnix ≤ trace.store.disk.snapshotTime
deriving Decidable

/-- The peer of an event is a node identifier. An event that comes with a snapshot has a finite
score and leaves no event to apply again. Any other event is a message that is made again with its
weight, and it is newer than the snapshot. -/
def KeptResult (trace : Trace Number) (event : ReputationEvent Number) (now : Int)
    (reading : ScoreReading Number) :
    Except ReputationError (ReputationDelta Number) × ReputationStore Number → Prop
  | (.error _, _) => True
  | (.ok delta, store) =>
    Valid event.peer.text ∧
      if trace.store.snapshotDue then
        arith.isFinite delta.scoreAfter = true ∧
          Settled arith ((trace.appended event store).snapshotTaken reading)
      else event.faithful arith ∧ trace.store.disk.snapshotTime < now

instance (trace : Trace Number) (event : ReputationEvent Number) (now : Int)
    (reading : ScoreReading Number)
    (result : Except ReputationError (ReputationDelta Number) × ReputationStore Number) :
    Decidable (KeptResult arith trace event now reading result) := by
  obtain ⟨_ | _, _⟩ := result <;> dsimp only [KeptResult] <;> infer_instance

def Kept (trace : Trace Number) : StoreEvent Number → Prop
  | .apply event now snapshotNow reading =>
    KeptResult arith trace event now reading
      (trace.store.apply arith lineBytes event now snapshotNow reading)
  | .flush now reading =>
    Settled arith
      ({trace with store := trace.store.flush lineBytes now reading}.snapshotTaken reading)
  | .reopen _ _ => True

instance (trace : Trace Number) (event : StoreEvent Number) :
    Decidable (Kept arith lineBytes trace event) := by
  cases event <;> dsimp only [Kept] <;> infer_instance

/-- The peer is not a node identifier, or it is one in small letters. -/
def NormalPeer (_ : Trace Number) : StoreEvent Number → Prop
  | .apply event _ _ _ => Normal event.peer.text
  | _ => True

instance (trace : Trace Number) (event : StoreEvent Number) :
    Decidable (trace.NormalPeer event) := by
  cases event <;> dsimp only [Trace.NormalPeer] <;> infer_instance

end Trace

variable {arith : Arithmetic Number} {lineBytes : ReputationDelta Number → Nat}
  {trace : Trace Number}

namespace Trace

variable {history : List (ReputationEvent Number)} {number : Nat} {other : ReputationEvent Number}

theorem getElem?_append_of_some {event : ReputationEvent Number}
    (found : history[number]? = some event) : (history ++ [other])[number]? = some event := by
  rw [getElem?_append_left (List.getElem?_eq_some_iff.mp found).1]
  exact found

theorem getElem?_append_cases {event : ReputationEvent Number}
    (found : (history ++ [other])[number]? = some event) :
    history[number]? = some event ∨ (number = history.length ∧ event = other) := by
  by_cases below : number < history.length
  · rw [getElem?_append_left below] at found
    exact .inl found
  · have within := (List.getElem?_eq_some_iff.mp found).1
    rw [length_append, length_singleton] at within
    have last : number = history.length := by omega
    subst last
    rw [getElem?_concat_length] at found
    exact .inr ⟨rfl, (Option.some.inj found).symm⟩

theorem faithfulAt_of_some {event : ReputationEvent Number}
    (found : history[number]? = some event) :
    faithfulAt arith history number = event.faithful arith := by
  rw [faithfulAt, found]
  rfl

/-- The store after an event whose change is in the log. -/
def afterDelta (trace : Trace Number) (table : PeerScoreTable Number)
    (delta : ReputationDelta Number) : ReputationStore Number :=
  {trace.store with
    table, pendingSinceSnapshot := trace.store.pendingSinceSnapshot + 1}.appendDelta delta

variable {event : ReputationEvent Number} {delta : ReputationDelta Number} {now : Int}
  {after : PeerScoreTable Number}

theorem Consistent.appended (consistent : trace.Consistent) (normal : Normal event.peer.text)
    (applied : Applied arith trace.store.table event now delta after) :
    Consistent (trace.appended event (trace.afterDelta after delta)) := by
  obtain ⟨value, -, rfl⟩ := applied.inserted
  exact {
    spelled := consistent.spelled.insert normal value
    tidy := ⟨consistent.tidy.entries, forall_mem_append.mpr
      ⟨consistent.tidy.lines, forall_mem_singleton.mpr (applied.samePeer ▸ normal)⟩⟩
    lines := by
      apply rel_append
      · exact consistent.lines.imp fun number line ⟨event, found, peer⟩ =>
          ⟨event, getElem?_append_of_some found, peer⟩
      · exact .cons ⟨event, getElem?_concat_length, applied.samePeer⟩ .nil
    held_all := by
      intro number other found
      obtain found | ⟨rfl, rfl⟩ := getElem?_append_cases found
      · exact mem_append_left _ (consistent.held_all number other found)
      · exact mem_append_right _ mem_cons_self
    held_only := by
      intro number key member
      obtain member | member := mem_append.mp member
      · obtain ⟨other, found, same⟩ := consistent.held_only number key member
        exact ⟨other, getElem?_append_of_some found, same⟩
      · cases mem_singleton.mp member
        exact ⟨event, getElem?_concat_length, rfl⟩
    has := forall_mem_append.mpr ⟨fun other member => (consistent.has other member).insert _ value,
      forall_mem_singleton.mpr (has_insert _)⟩
    saved := by
      intro number key member
      obtain ⟨other, found, rest⟩ := consistent.saved number key member
      exact ⟨other, getElem?_append_of_some found, rest⟩ }

/-- Only the new event may return where the others did not. -/
theorem returns_appended_iff (consistent : trace.Consistent) (number : Nat) :
    (trace.appended event (trace.afterDelta after delta)).Returns arith number ↔
      trace.Returns arith number ∨
        (number = trace.history.length ∧ event.faithful arith ∧
          returned arith trace.store.disk.snapshotTime delta) := by
  have faithful : ∀ {number event} (line : ReputationDelta Number),
      (number, line) ∈ trace.logged.zip trace.store.disk.log →
        faithfulAt arith (trace.history ++ [event]) number =
          faithfulAt arith trace.history number := by
    intro number event line member
    obtain ⟨earlier, found, -⟩ := forall₂_zip consistent.lines member
    rw [faithfulAt_of_some found, faithfulAt_of_some (getElem?_append_of_some found)]
  have last : faithfulAt arith (trace.history ++ [event]) trace.history.length =
      event.faithful arith := faithfulAt_of_some getElem?_concat_length
  have zipped : (trace.logged ++ [trace.history.length]).zip (trace.store.disk.log ++ [delta]) =
      trace.logged.zip trace.store.disk.log ++ [(trace.history.length, delta)] :=
    zip_append consistent.lines.length_eq
  constructor
  · rintro ⟨own, line, member, back⟩
    obtain member | member := mem_append.mp (zipped ▸ member)
    · exact .inl ⟨faithful line member ▸ own, line, member, back⟩
    · cases mem_singleton.mp member
      exact .inr ⟨rfl, last ▸ own, back⟩
  · rintro (⟨own, line, member, back⟩ | ⟨rfl, own, back⟩)
    · exact ⟨(faithful line member).trans own, line, zipped ▸ mem_append_left _ member, back⟩
    · exact ⟨last.trans own, delta, zipped ▸ mem_append_right _ mem_cons_self, back⟩

/-- Without a snapshot, a new event is recovered when its line returns. -/
theorem recovered_appended_iff (consistent : trace.Consistent)
    (recovered : trace.Recovered arith) (normal : Normal event.peer.text)
    (applied : Applied arith trace.store.table event now delta after) :
    (trace.appended event (trace.afterDelta after delta)).Recovered arith ↔
      event.faithful arith ∧ returned arith trace.store.disk.snapshotTime delta := by
  obtain ⟨readable, each⟩ := (recovered_iff consistent.tidy).mp recovered
  have fresh : trace.history.length ∉ trace.saved.map Prod.fst :=
    fun member => absurd (consistent.saved_lt member) (lt_irrefl _)
  have silent : ¬ trace.Returns arith trace.history.length :=
    fun returns => absurd (consistent.returns_lt returns) (lt_irrefl _)
  rw [recovered_iff (consistent.appended normal applied).tidy]
  constructor
  · rintro ⟨-, all⟩
    have here := all trace.history.length
      (by rw [appended, length_append]; exact Nat.lt_succ_self _)
    rw [returns_appended_iff consistent] at here
    obtain ⟨saved, -⟩ | ⟨returns | ⟨-, back⟩, -⟩ := here
    · exact absurd saved fresh
    · exact absurd returns silent
    · exact back
  · intro back
    refine ⟨readable, fun number below => ?_⟩
    rw [returns_appended_iff consistent]
    rw [appended, length_append, length_singleton] at below
    obtain earlier | rfl := Nat.lt_succ_iff_lt_or_eq.mp below
    · have other : ¬ (number = trace.history.length ∧ event.faithful arith ∧
          returned arith trace.store.disk.snapshotTime delta) := fun both => by omega
      rw [or_iff_left other]
      exact each number earlier
    · exact .inr ⟨.inr ⟨rfl, back⟩, fresh⟩

variable {reading : ScoreReading Number}

/-- The trace after a snapshot that leaves this log. -/
def savedWith (trace : Trace Number) (now : Int)
    (reading : ScoreReading Number) (log : List (ReputationDelta Number)) :
    Trace Number :=
  {trace with
    store := {trace.store with
      pendingSinceSnapshot := 0
      disk := ⟨some ⟨now, PeerScoreTable.snapshot reading trace.store.table⟩, log⟩}
    saved := savedEvents (PeerScoreTable.keyed reading trace.store.table) trace.held
    logged := if log.isEmpty then [] else trace.logged}

/-- The log is kept, or it is emptied. -/
theorem writeSnapshot_cases (trace : Trace Number)
    {reading : ScoreReading Number} :
    ∃ log, (log = trace.store.disk.log ∨ log = []) ∧
      {trace with store := trace.store.writeSnapshot lineBytes now reading}.snapshotTaken reading =
        trace.savedWith now reading log := by
  simp only [writeSnapshot, maybeRotateLog]
  split
  · split
    · exact ⟨_, .inl rfl, rfl⟩
    · exact ⟨_, .inr rfl, rfl⟩
  · exact ⟨_, .inl rfl, rfl⟩

variable {log : List (ReputationDelta Number)}

section

variable (consistent : trace.Consistent)
include consistent

section

variable (part : log = trace.store.disk.log ∨ log = [])
include part

theorem lines_savedWith :
    List.Forall₂ (fun number line => ∃ event, trace.history[number]? = some event ∧
      line.peer = event.peer.text) (if log.isEmpty then [] else trace.logged) log := by
  cases log with
  | nil => exact .nil
  | cons line rest =>
    obtain same | empty := part
    · rw [same, if_neg (by rw [← same]; exact Bool.false_ne_true)]
      exact consistent.lines
    · cases empty

theorem Consistent.savedWith (now : Int) (reading : ScoreReading Number) :
    Consistent (trace.savedWith now reading log) where
  spelled := consistent.spelled
  tidy := by
    constructor
    · intro state stored entry member
      cases stored
      obtain ⟨key, value, found, known, -⟩ := mem_snapshot_iff.mp member
      rw [Canonical, consistent.spelled key value found _ known]
      exact known
    · intro line member
      obtain ⟨number, inside⟩ := exists_zip_left (lines_savedWith consistent part) member
      obtain ⟨event, found, peer⟩ := forall₂_zip (lines_savedWith consistent part) inside
      rw [peer]
      exact consistent.normal (mem_of_getElem? found)
  lines := lines_savedWith consistent part
  held_all := consistent.held_all
  held_only := consistent.held_only
  has := consistent.has
  saved := by
    intro number name member
    obtain ⟨key, node, inside, known, last, rfl⟩ := mem_savedEvents_iff.mp member
    obtain ⟨event, found, rfl⟩ := consistent.held_only number key inside
    obtain ⟨entry, kept, rfl⟩ := mem_keyed_of_lastKey last
    have same := consistent.normal (mem_of_getElem? found) _ known
    exact ⟨event, found, same, _, rfl, entry, mem_map.mpr ⟨_, kept, rfl⟩, rfl⟩

omit part in
/-- A snapshot has the events whose peers are node identifiers. -/
theorem mem_saved_savedWith_iff (found : trace.history[number]? = some event) (now : Int)
    (reading : ScoreReading Number) (log : List (ReputationDelta Number)) :
    number ∈ (trace.savedWith now reading log).saved.map Prod.fst ↔ Valid event.peer.text := by
  rw [mem_map]
  constructor
  · rintro ⟨⟨_, name⟩, member, rfl⟩
    obtain ⟨key, node, inside, known, -, -⟩ := mem_savedEvents_iff.mp member
    obtain ⟨other, same, rfl⟩ := consistent.held_only _ key inside
    rw [found] at same
    cases same
    rw [Valid, known]
    rfl
  · intro valid
    have member := mem_of_getElem? found
    have known := (consistent.normal member).fromHex valid
    have last := lastKey_of_has consistent.spelled (consistent.has event member) known reading
    exact ⟨_, mem_savedEvents_iff.mpr
      ⟨_, _, consistent.held_all number event found, known, last, rfl⟩, rfl⟩

/-- After a snapshot no line may return, because the snapshot has every event. -/
theorem recovered_savedWith_iff :
    (trace.savedWith now reading log).Recovered arith ↔
      (trace.savedWith now reading log).store.disk.Readable arith ∧
        (∀ event ∈ trace.history, Valid event.peer.text) ∧
        Settled arith (trace.savedWith now reading log) := by
  have saved := consistent.savedWith part now reading
  rw [recovered_iff saved.tidy]
  apply and_congr_right
  intro readable
  constructor
  · intro each
    have valid : ∀ event ∈ trace.history, Valid event.peer.text := by
      intro event member
      obtain ⟨number, found⟩ := mem_iff_getElem?.mp member
      obtain ⟨kept, -⟩ | ⟨⟨-, line, inside, back⟩, -⟩ :=
        each number (List.getElem?_eq_some_iff.mp found).1
      · exact (mem_saved_savedWith_iff consistent found now reading log).mp kept
      · obtain ⟨other, same, peer⟩ := forall₂_zip saved.lines inside
        have equal : some event = some other := found.symm.trans same
        cases equal
        rw [← peer]
        exact back.1.2.2
    refine ⟨valid, fun ⟨number, line⟩ inside faithful replayable => ?_⟩
    obtain ⟨event, found, -⟩ := forall₂_zip saved.lines inside
    have kept := (mem_saved_savedWith_iff consistent found now reading log).mpr
      (valid event (mem_of_getElem? found))
    by_contra newer
    have returns : (trace.savedWith now reading log).Returns arith number :=
      ⟨faithful, line, inside, replayable, lt_of_not_ge newer⟩
    obtain ⟨-, silent⟩ | ⟨-, out⟩ := each number (List.getElem?_eq_some_iff.mp found).1
    · exact silent returns
    · exact out kept
  · rintro ⟨valid, settled⟩ number below
    have found := getElem?_eq_getElem below
    have member := getElem_mem below
    refine .inl ⟨(mem_saved_savedWith_iff consistent found now reading log).mpr
      (valid _ member), ?_⟩
    rintro ⟨faithful, line, inside, replayable, newer⟩
    exact absurd newer (not_lt.mpr (settled _ inside faithful replayable))

end

end

/-- This holds in every run whose events are recovered. -/
structure Steady (arith : Arithmetic Number) (trace : Trace Number) : Prop where
  consistent : trace.Consistent
  bounded : PeerScoreTable.Bounded arith trace.store.table
  valid : ∀ event ∈ trace.history, Valid event.peer.text

theorem readable_savedWith (bounded : PeerScoreTable.Bounded arith trace.store.table) :
    (trace.savedWith now reading log).store.disk.Readable arith := by
  intro state stored entry member
  cases stored
  obtain ⟨key, value, found, -, score⟩ := mem_snapshot_iff.mp member
  rw [score]
  exact (bounded key value found).1

section

variable (steady : trace.Steady arith)
include steady

theorem Steady.savedWith (part : log = trace.store.disk.log ∨ log = []) (now : Int)
    (reading : ScoreReading Number) :
    Steady arith (trace.savedWith now reading log) :=
  ⟨steady.consistent.savedWith part now reading, steady.bounded, steady.valid⟩

/-- A new event keeps all this when its peer is a node identifier and its score is finite. -/
theorem Steady.appended (normal : Normal event.peer.text)
    (applied : Applied arith trace.store.table event now delta after)
    (valid : Valid event.peer.text) (finite : arith.isFinite delta.scoreAfter = true) :
    Steady arith (trace.appended event (trace.afterDelta after delta)) := by
  refine ⟨steady.consistent.appended normal applied, ?_,
    forall_mem_append.mpr ⟨steady.valid, forall_mem_singleton.mpr valid⟩⟩
  obtain ⟨value, score, rfl⟩ := applied.inserted
  apply steady.bounded.insert
  rw [score]
  exact ⟨finite, applied.clamped⟩

/-- An event that is refused may leave a new entry. -/
theorem Steady.refused (normal : Normal event.peer.text) (now : Int) :
    Steady arith {trace with store := {trace.store with
      table := trace.store.table.insert event.peer.text
        (entry arith trace.store.table event.peer.text now)}} where
  consistent := {
    spelled := steady.consistent.spelled.insert normal _
    tidy := steady.consistent.tidy
    lines := steady.consistent.lines
    held_all := steady.consistent.held_all
    held_only := steady.consistent.held_only
    has := fun other member => (steady.consistent.has other member).insert _ _
    saved := steady.consistent.saved }
  bounded := steady.bounded.insert (steady.bounded.entry event.peer.text now)
  valid := steady.valid

omit steady in
/-- The score of a new event that is not finite spoils the next snapshot. -/
theorem finite_of_readable (applied : Applied arith trace.store.table event now delta after)
    (normal : Normal event.peer.text) (valid : Valid event.peer.text) {snapshotNow : Int}
    (readable : ((trace.appended event (trace.afterDelta after delta)).savedWith snapshotNow reading
      log).store.disk.Readable arith) :
    arith.isFinite delta.scoreAfter = true := by
  obtain ⟨value, score, rfl⟩ := applied.inserted
  rw [← score]
  have found : (trace.store.table.insert event.peer.text value).lookup event.peer.text =
      some value := AList.lookup_insert _
  exact readable _ rfl ⟨⟨event.peer.text⟩, value.score⟩
    (mem_snapshot_iff.mpr ⟨_, value, found, normal.fromHex valid, rfl⟩)

omit steady in
theorem finite_of_message (applied : Applied arith trace.store.table event now delta after)
    (message : delta.IsMessage) : arith.isFinite delta.scoreAfter = true := by
  apply applied.finite
  rw [← applied.sameKind]
  obtain kind | kind := message
  · rw [kind]
    exact EventKind.noConfusion
  · rw [kind]
    exact EventKind.noConfusion

omit steady in
theorem message_of_faithful (applied : Applied arith trace.store.table event now delta after)
    (faithful : event.faithful arith) : delta.IsMessage := by
  rw [ReputationDelta.IsMessage, applied.sameKind]
  cases event with
  | validMessage | invalidMessage => simp [ReputationEvent.kindTag]
  | _ =>
    simp only [ReputationEvent.faithful, ReputationEvent.kindTag, EventKind.replayedEvent,
      Option.map_none, decide_eq_true_eq, reduceCtorEq] at faithful

/-- The line of a message can be read again. -/
theorem returned_iff (applied : Applied arith trace.store.table event now delta after) :
    event.faithful arith ∧ returned arith trace.store.disk.snapshotTime delta ↔
      Valid event.peer.text ∧ event.faithful arith ∧ trace.store.disk.snapshotTime < now := by
  rw [returned, applied.time]
  constructor
  · rintro ⟨faithful, ⟨-, -, valid⟩, newer⟩
    rw [applied.samePeer] at valid
    exact ⟨valid, faithful, newer⟩
  · rintro ⟨valid, faithful, newer⟩
    rw [← applied.samePeer] at valid
    have message := message_of_faithful applied faithful
    refine ⟨faithful, ⟨?_, message, valid⟩, newer⟩
    have finite := finite_of_message applied message
    have before := steady.bounded.entry event.peer.text now
    rw [← applied.before] at before
    refine ⟨before.1, finite, ?_⟩
    rw [applied.difference]
    exact InRange.finite_sub arith ⟨finite, applied.clamped⟩ before

end

variable (lineBytes) (reading) (snapshotNow : Int)

theorem apply_of_ok (done : applyWithCount arith trace.store.table event none now =
      (.ok delta, after)) :
    trace.store.apply arith lineBytes event now snapshotNow reading =
      (.ok delta, if trace.store.snapshotDue then
        (trace.afterDelta after delta).writeSnapshot lineBytes snapshotNow reading
      else trace.afterDelta after delta) := by
  simp only [apply, done]
  rfl

/-- An event is refused, or it comes without a snapshot, or it comes with one. -/
theorem step_apply_cases (trace : Trace Number) {event : ReputationEvent Number} :
    (trace.step arith lineBytes (.apply event now snapshotNow reading) =
          {trace with store := {trace.store with
            table := trace.store.table.insert event.peer.text
              (entry arith trace.store.table event.peer.text now)}} ∧
        trace.Kept arith lineBytes (.apply event now snapshotNow reading)) ∨
      ∃ delta after, Applied arith trace.store.table event now delta after ∧
        ((trace.step arith lineBytes (.apply event now snapshotNow reading) =
              trace.appended event (trace.afterDelta after delta) ∧
            (trace.Kept arith lineBytes (.apply event now snapshotNow reading) ↔
              Valid event.peer.text ∧ event.faithful arith ∧
                trace.store.disk.snapshotTime < now)) ∨
          ∃ log, (log = trace.store.disk.log ++ [delta] ∨ log = []) ∧
            trace.step arith lineBytes (.apply event now snapshotNow reading) =
              (trace.appended event (trace.afterDelta after delta)).savedWith snapshotNow reading
                log ∧
            (trace.Kept arith lineBytes (.apply event now snapshotNow reading) ↔
              Valid event.peer.text ∧ arith.isFinite delta.scoreAfter = true ∧
                Settled arith ((trace.appended event (trace.afterDelta after delta)).savedWith
                  snapshotNow reading log))) := by
  obtain ⟨delta, after, done, applied⟩ | ⟨error, done, -⟩ :=
    applyWithCount_cases arith trace.store.table event
  · refine .inr ⟨delta, after, applied, ?_⟩
    have answer := apply_of_ok lineBytes reading snapshotNow done
    cases due : trace.store.snapshotDue with
    | false =>
      simp [step, Kept, KeptResult, answer, due]
    | true =>
      right
      obtain ⟨log, part, same⟩ := writeSnapshot_cases
        (trace.appended event (trace.afterDelta after delta))
      refine ⟨log, part, ?_, ?_⟩
      · simp only [step, answer, due, if_true]
        exact same
      · rw [← same]
        simp only [Kept, KeptResult, answer, due, if_true]
        exact Iff.rfl
  · simp [step, Kept, KeptResult, apply, done]

theorem step_flush (trace : Trace Number) :
    ∃ log, (log = trace.store.disk.log ∨ log = []) ∧
      trace.step arith lineBytes (.flush now reading) = trace.savedWith now reading log ∧
      (trace.Kept arith lineBytes (.flush now reading) ↔
        Settled arith (trace.savedWith now reading log)) := by
  obtain ⟨log, part, same⟩ := writeSnapshot_cases trace
  refine ⟨log, part, same, ?_⟩
  rw [← same]
  exact Iff.rfl

variable {opened : Opened Number}

theorem held_only_reopened (consistent : trace.Consistent)
    (from_ : OpenedFrom arith trace.store.disk opened) {key : List Char}
    (member : (number, key) ∈
      trace.saved ++ returnedEvents arith trace.history trace.logged opened.outcomes) :
    ∃ event, trace.history[number]? = some event ∧ key = event.peer.text := by
  obtain member | member := mem_append.mp member
  · obtain ⟨event, found, same, -⟩ := consistent.saved number key member
    exact ⟨event, found, same⟩
  · obtain ⟨-, line, inside, -, rfl⟩ :=
      (mem_returnedEvents_of_tells consistent.tidy from_.tells).mp member
    exact forall₂_zip consistent.lines inside

section

variable (steady : trace.Steady arith) (recovered : trace.Recovered arith)
include steady recovered

variable (config : ReputationStoreConfig)

/-- Opening leaves the disk as it is. -/
theorem step_reopen :
    ∃ opened, OpenedFrom arith trace.store.disk opened ∧
      trace.step arith lineBytes (.reopen config now) =
        {trace with
          store := opened.store
          held :=
            trace.saved ++ returnedEvents arith trace.history trace.logged opened.outcomes} := by
  have readable := ((recovered_iff steady.consistent.tidy).mp recovered).1
  obtain ⟨opened, done, from_⟩ := openAt_of_readable steady.consistent.tidy readable config now
  refine ⟨opened, from_, ?_⟩
  simp only [step, done]

theorem recovered_reopened : (trace.step arith lineBytes (.reopen config now)).Recovered arith := by
  obtain ⟨opened, from_, same⟩ := step_reopen lineBytes steady recovered config
  rw [same, recovered_iff (from_.sameDisk ▸ steady.consistent.tidy)]
  simp only [Returns, from_.sameDisk]
  exact (recovered_iff steady.consistent.tidy).mp recovered

/-- Each event of the history is in the opened table. -/
theorem held_reopened (from_ : OpenedFrom arith trace.store.disk opened)
    (found : trace.history[number]? = some event) :
    (number, event.peer.text) ∈
        trace.saved ++ returnedEvents arith trace.history trace.logged opened.outcomes ∧
      PeerScoreTable.Has opened.store.table event.peer.text := by
  have consistent := steady.consistent
  have each := ((recovered_iff consistent.tidy).mp recovered).2
  obtain ⟨kept, -⟩ | ⟨⟨faithful, line, inside, back⟩, -⟩ :=
    each number (List.getElem?_eq_some_iff.mp found).1
  · obtain ⟨⟨_, key⟩, member, rfl⟩ := mem_map.mp kept
    obtain ⟨other, same, rfl, state, stored, entry, present, name⟩ := consistent.saved _ key member
    rw [found] at same
    cases same
    refine ⟨mem_append_left _ member, ?_⟩
    rw [← name]
    exact from_.hasEntry state stored entry present
  · obtain ⟨other, same, peer⟩ := forall₂_zip consistent.lines inside
    rw [found] at same
    cases same
    rw [← peer]
    refine ⟨mem_append_right _ ?_, from_.hasLine line (of_mem_zip inside).2 back⟩
    exact (mem_returnedEvents_of_tells consistent.tidy from_.tells).mpr
      ⟨faithful, line, inside, back, rfl⟩

theorem Steady.reopened : Steady arith (trace.step arith lineBytes (.reopen config now)) := by
  obtain ⟨opened, from_, same⟩ := step_reopen lineBytes steady recovered config
  have consistent := steady.consistent
  rw [same]
  refine ⟨?_, from_.bounded, steady.valid⟩
  exact {
    spelled := from_.spelled
    tidy := from_.sameDisk ▸ consistent.tidy
    lines := from_.sameDisk ▸ consistent.lines
    held_all := fun number event found => (held_reopened steady recovered from_ found).1
    held_only := fun number key member => held_only_reopened consistent from_ member
    has := by
      intro event member
      obtain ⟨number, found⟩ := mem_iff_getElem?.mp member
      exact (held_reopened steady recovered from_ found).2
    saved := from_.sameDisk ▸ consistent.saved }

/-- Each event keeps the store recoverable exactly under its condition. -/
theorem recovered_step_iff {event : StoreEvent Number} (normal : trace.NormalPeer event) :
    (trace.step arith lineBytes event).Recovered arith ↔ trace.Kept arith lineBytes event := by
  cases event with
  | apply event now snapshotNow reading =>
    obtain ⟨same, kept⟩ | ⟨delta, after, applied, ⟨same, kept⟩ | ⟨log, part, same, kept⟩⟩ :=
      step_apply_cases lineBytes reading snapshotNow trace
    · rw [same]
      exact iff_of_true recovered kept
    · rw [same, kept, recovered_appended_iff steady.consistent recovered normal applied]
      exact returned_iff steady applied
    · rw [same, kept, recovered_savedWith_iff (steady.consistent.appended normal applied) part]
      constructor
      · rintro ⟨readable, valid, settled⟩
        have here := valid event (mem_append_right _ mem_cons_self)
        exact ⟨here, finite_of_readable applied normal here readable, settled⟩
      · rintro ⟨valid, finite, settled⟩
        have next := steady.appended normal applied valid finite
        exact ⟨readable_savedWith next.bounded, next.valid, settled⟩
  | flush now reading =>
    obtain ⟨log, part, same, kept⟩ := step_flush lineBytes reading trace
    rw [same, kept, recovered_savedWith_iff steady.consistent part]
    exact ⟨fun all => all.2.2, fun settled =>
      ⟨readable_savedWith steady.bounded, steady.valid, settled⟩⟩
  | reopen config now =>
    exact iff_of_true (recovered_reopened lineBytes steady recovered config) trivial

theorem Steady.step (event : StoreEvent Number) (normal : trace.NormalPeer event)
    (kept : trace.Kept arith lineBytes event) :
    Steady arith (trace.step arith lineBytes event) := by
  cases event with
  | apply event now snapshotNow reading =>
    obtain ⟨same, -⟩ | ⟨delta, after, applied, ⟨same, meets⟩ | ⟨log, part, same, meets⟩⟩ :=
      step_apply_cases lineBytes reading snapshotNow trace
    · rw [same]
      exact steady.refused normal now
    · obtain ⟨valid, faithful, -⟩ := meets.mp kept
      rw [same]
      exact steady.appended normal applied valid
        (finite_of_message applied (message_of_faithful applied faithful))
    · obtain ⟨valid, finite, -⟩ := meets.mp kept
      rw [same]
      exact (steady.appended normal applied valid finite).savedWith part snapshotNow reading
  | flush now reading =>
    obtain ⟨log, part, same, -⟩ := step_flush lineBytes reading trace
    rw [same]
    exact steady.savedWith part now reading
  | reopen config now => exact steady.reopened lineBytes recovered config

end

end Trace

def fresh (config : ReputationStoreConfig) : Trace Number := {store := {config}}

/-- When the texts of node identifiers are in small letters, a store can always be recovered exactly
when each of its events meets its condition. -/
theorem always_recovered_iff (arith : Arithmetic Number)
    (lineBytes : ReputationDelta Number → Nat) (config : ReputationStoreConfig)
    (events : List (StoreEvent Number))
    (normal : Guarded (Trace.step arith lineBytes) Trace.NormalPeer (fresh config) events) :
    Always (Trace.step arith lineBytes) (Trace.Recovered arith) (fresh config) events ↔
      Guarded (Trace.step arith lineBytes) (Trace.Kept arith lineBytes) (fresh config) events := by
  have steady : Steady arith (fresh config) :=
    ⟨consistent_fresh, bounded_empty, forall_mem_nil _⟩
  have recovered : Recovered arith (fresh config) :=
    (recovered_iff steady.consistent.tidy).mpr
      ⟨fun state stored => absurd stored.symm (Option.some_ne_none state),
        fun number below => absurd below (Nat.not_lt_zero number)⟩
  exact always_iff_guarded_of _ (Steady arith)
    (fun trace event steady recovered normal =>
      recovered_step_iff lineBytes steady recovered normal)
    (fun trace event steady recovered normal kept =>
      steady.step lineBytes recovered event normal kept)
    steady recovered normal

/-- Recovery can be computed for one opening. -/
def Trace.recoveredAt (arith : Arithmetic Number) (trace : Trace Number) (now : Int) : Bool :=
  match ReputationStore.openAt arith trace.store.config trace.store.disk now with
  | .error _ => false
  | .ok opened => (List.range trace.history.length).all fun number =>
    Xor (number ∈ trace.saved.map Prod.fst)
      (number ∈
        (returnedEvents arith trace.history trace.logged opened.outcomes).map Prod.fst)

theorem Trace.recoveredAt_of_recovered (recovered : trace.Recovered arith) (now : Int) :
    trace.recoveredAt arith now = true := by
  obtain ⟨opened, done, each⟩ := recovered now
  simp only [recoveredAt, done, all_eq_true, mem_range]
  exact fun number below => decide_eq_true (each number below)

theorem not_always_recovered {start : Trace Number} {events : List (StoreEvent Number)}
    (lost : (run (step arith lineBytes) start events).recoveredAt arith 0 = false) :
    ¬ Always (step arith lineBytes) (Recovered arith) start events := by
  intro always
  have found := recoveredAt_of_recovered (Always.final _ always) 0
  rw [lost] at found
  cases found

/-- These numbers are whole, and none of them is too large. A valid message without bytes has no
weight. -/
def wholeNumbers : Arithmetic Int where
  zero := 0
  add := (· + ·)
  sub := (· - ·)
  clamp number := max (-100) (min 100 number)
  equal := inferInstance
  isFinite _ := true
  nonneg number := 0 ≤ number
  delta
    | .validMessage _ _ size => (size.toNat + 1).log2
    | .invalidMessage _ _ _ => -1
    | .pairingEstablished _ _ => 25
    | _ => 0
  readBack := some
  finite_zero := rfl
  clamp_clamp := fun number => by omega
  finite_clamp := fun _ _ => rfl
  finite_sub := fun _ _ _ _ => rfl
  finite_add := fun _ _ _ _ => rfl
  finite_valid := fun _ _ _ => rfl
  finite_invalid := fun _ _ _ => rfl
  readBack_isSome := fun _ => rfl
  finite_readBack := fun _ _ _ => rfl

def samplePeer : NodeId := ⟨List.replicate 64 'a'⟩

def message (now : Int) : StoreEvent Int :=
  .apply (.invalidMessage samplePeer none .badSignature) now now (Reading.plain _)

/-- The second message comes in the second of the snapshot. Opening loses it. -/
def sameSecond : List (StoreEvent Int) := [message 10, .flush 10 (Reading.plain _), message 10]

/-- Opening does not know what a pairing was. -/
def paired : List (StoreEvent Int) :=
  [.apply (.pairingEstablished samplePeer "c1") 10 10 (Reading.plain _)]

/-- Opening makes a valid message again as one without bytes, which has another weight. -/
def sized : List (StoreEvent Int) :=
  [.apply (.validMessage samplePeer none 10) 10 10 (Reading.plain _)]

/-- The clock goes back before the snapshot. The message is in the snapshot and comes back. -/
def clockBack : List (StoreEvent Int) := [message 10, .flush 9 (Reading.plain _)]

theorem events_not_recovered :
    ¬ ∃ events ∈ [sameSecond, paired, sized, clockBack],
      Always (Trace.step wholeNumbers fun _ => 1) (Trace.Recovered wholeNumbers) (fresh {})
        events := by
  have lost : ∀ events ∈ [sameSecond, paired, sized, clockBack],
      (run (step wholeNumbers fun _ => 1) (fresh {}) events).recoveredAt wholeNumbers 0 =
        false := by
    decide +kernel
  rintro ⟨events, member, always⟩
  exact not_always_recovered (lost events member) always

/-- A message, a snapshot and a later message. -/
theorem laterMessage_recovered :
    Always (Trace.step wholeNumbers fun _ => 1) (Trace.Recovered wholeNumbers) (fresh {})
      [message 10, .flush 10 (Reading.plain _), message 11] :=
  (always_recovered_iff wholeNumbers (fun _ => 1) {} _ (by decide +kernel)).mpr
    (by decide +kernel)

end A3Net.Reputation
