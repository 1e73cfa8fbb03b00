/-
The path is `:memory:` or that of a file. An empty path and a URI name may also give a connection a
database of its own, and they are left out.
-/

import A3Net.Construction.Mailbox.Storage
import Mathlib.Algebra.Ring.Int.Defs

namespace A3Net.Mailbox

/-- The time columns hold texts that the date library writes and reads. -/
structure Chrono where
  toRfc3339 : DateTime → String
  parseFromRfc3339 : String → Option DateTime

/-- The store has one table. The times of a row stand for their texts. -/
structure SqliteStore where
  path : String
  rows : List StoredEnvelope := []

/-- The cast of an unsigned word to a signed one wraps. -/
def asI64 (value : Nat) : Int := if value < 2 ^ 63 then value else value - 2 ^ 64

namespace SqliteStore

variable (chrono : Chrono)

/-- A time column that does not parse reads as the time of the call. -/
def readTime (now time : DateTime) : DateTime :=
  (chrono.parseFromRfc3339 (chrono.toRfc3339 time)).getD now

def rowToEnvelope (now : DateTime) (row : StoredEnvelope) : StoredEnvelope :=
  {row with queuedAt := readTime chrono now row.queuedAt,
            expiresAt := readTime chrono now row.expiresAt}

variable (store : SqliteStore) (recipientId : String)

/-- The rows of a recipient stand in the order of their insertion. -/
def rowsOf : List StoredEnvelope :=
  store.rows.filter fun row => row.recipientId = recipientId

variable (rows : List StoredEnvelope)

/-- The maximum of no rows is null and reads as zero. -/
def maxSequence : Nat :=
  ((rows.map StoredEnvelope.sequence).max?).getD 0

def nextSequence : Nat := maxSequence rows + 1

/-- The sequence is a signed word, and its overflow fails the call. -/
def enqueue (envelope : StoredEnvelope) (now : DateTime) : SqliteStore × Option EnqueueOutcome :=
  let rows := store.rowsOf envelope.recipientId
  match rows.find? envelope.repeats with
  | some row =>
    (store, some ⟨envelope.msgId, row.sequence, readTime chrono now row.queuedAt,
      readTime chrono now row.expiresAt, true⟩)
  | none =>
    let sequence := nextSequence rows
    if sequence < 2 ^ 63 then
      ({store with rows := store.rows ++ [{envelope with sequence}]},
        some ⟨envelope.msgId, sequence, envelope.queuedAt, envelope.expiresAt, false⟩)
    else (store, none)

/-- A negative limit of the query is no limit. -/
def limited {α : Type} (limit : Nat) (rows : List α) : List α :=
  if asI64 limit < 0 then rows else rows.take limit

def pull (since : Watermark) (limit : Nat) (now : DateTime) :
    List StoredEnvelope :=
  let later := (store.rowsOf recipientId).filter fun row => asI64 since < row.sequence
  let ordered := later.mergeSort fun first second => first.sequence ≤ second.sequence
  (limited limit ordered).map (rowToEnvelope chrono now)

def ack (msgIds : List String) : SqliteStore × Nat :=
  if msgIds.isEmpty then (store, 0)
  else
    let kept := store.rows.filter fun row =>
      !(row.recipientId = recipientId && msgIds.contains row.msgId)
    ({store with rows := kept}, store.rows.length - kept.length)

variable (now : DateTime)

/-- The purge compares the texts of the times. -/
def purged (row : StoredEnvelope) : Bool :=
  chrono.toRfc3339 row.expiresAt ≤ chrono.toRfc3339 now

/-- The purge opens its own connection, which sees no row of a database in memory. -/
def purgeExpired : SqliteStore × Nat :=
  if store.path = ":memory:" then (store, 0)
  else
    let kept := store.rows.filter fun row => !purged chrono now row
    ({store with rows := kept}, store.rows.length - kept.length)

/-- The usage counts the rows whose texts are later than now. -/
def quotaUsage : QuotaUsage :=
  let rows := store.rowsOf recipientId
  let live := rows.filter fun row => !purged chrono now row
  ⟨live.length,
    (live.map fun row => row.ciphertext.length + row.senderSignature.length + 236).sum,
    maxSequence rows⟩

def mailboxStore : MailboxStore SqliteStore where
  enqueue := enqueue chrono
  pull := pull chrono
  ack := ack
  purgeExpired := purgeExpired chrono
  quotaUsage := quotaUsage chrono

end SqliteStore
end A3Net.Mailbox
