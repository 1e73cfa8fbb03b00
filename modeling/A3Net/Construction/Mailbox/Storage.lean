import A3Net.Cryptography.Bytes
import A3Net.Machine.Table

namespace A3Net.Mailbox

/-- The first envelope of a recipient has sequence `1`, and `0` means the beginning. -/
abbrev Watermark := Nat

/-- A time counts nanoseconds from the Unix epoch. -/
abbrev DateTime := Int

structure StoredEnvelope where
  senderId : String
  recipientId : String
  msgId : String
  ciphertext : Bytes
  senderSignature : Bytes
  sequence : Nat
  queuedAt : DateTime
  expiresAt : DateTime
deriving DecidableEq

def StoredEnvelope.wireSize (envelope : StoredEnvelope) : Nat :=
  42 + 42 + 72 + 8 + 16 + envelope.ciphertext.length + envelope.senderSignature.length

structure EnqueueOutcome where
  msgId : String
  sequence : Nat
  queuedAt : DateTime
  expiresAt : DateTime
  duplicate : Bool
deriving DecidableEq

structure QuotaUsage where
  messageCount : Nat
  totalBytes : Nat
  highWatermark : Watermark
deriving DecidableEq

/-- The calls of a store read the clock, so each of them takes the time of the call. A failed
`enqueue` has no outcome. -/
structure MailboxStore (Store : Type) where
  enqueue : Store → StoredEnvelope → DateTime → Store × Option EnqueueOutcome
  pull : Store → String → Watermark → Nat → DateTime → List StoredEnvelope
  ack : Store → String → List String → Store × Nat
  purgeExpired : Store → DateTime → Store × Nat
  quotaUsage : Store → String → DateTime → QuotaUsage

/-- This is one call of a store with its arguments. -/
inductive Request where
  | enqueue (envelope : StoredEnvelope) (now : DateTime)
  | pull (recipientId : String) (since : Watermark) (limit : Nat) (now : DateTime)
  | ack (recipientId : String) (msgIds : List String)
  | purgeExpired (now : DateTime)
  | quotaUsage (recipientId : String) (now : DateTime)

/-- This is what a call of a store returns. -/
inductive Answer where
  | outcome (outcome : Option EnqueueOutcome)
  | envelopes (envelopes : List StoredEnvelope)
  | removed (count : Nat)
  | usage (usage : QuotaUsage)
deriving DecidableEq

def MailboxStore.serve {Store : Type} (api : MailboxStore Store) (store : Store) :
    Request → Store × Answer
  | .enqueue envelope now =>
    let (store, outcome) := api.enqueue store envelope now
    (store, .outcome outcome)
  | .pull recipientId since limit now =>
    (store, .envelopes (api.pull store recipientId since limit now))
  | .ack recipientId msgIds =>
    let (store, count) := api.ack store recipientId msgIds
    (store, .removed count)
  | .purgeExpired now =>
    let (store, count) := api.purgeExpired store now
    (store, .removed count)
  | .quotaUsage recipientId now => (store, .usage (api.quotaUsage store recipientId now))

/-- An envelope is a duplicate of another one by its sender and its message identifier. -/
def StoredEnvelope.repeats (envelope existing : StoredEnvelope) : Bool :=
  existing.msgId = envelope.msgId && existing.senderId = envelope.senderId

/-- The memory store has one bucket of envelopes for each recipient. -/
structure MemoryStore where
  inner : Table String (List StoredEnvelope) := ∅

namespace MemoryStore

variable (store : MemoryStore) (recipientId : String)

def bucket : List StoredEnvelope :=
  (store.inner.lookup recipientId).getD []

/-- A new sequence is one more than the number of stored envelopes. -/
def nextSequence (bucket : List StoredEnvelope) : Nat := bucket.length + 1

def enqueue (envelope : StoredEnvelope) : MemoryStore × EnqueueOutcome :=
  let bucket := store.bucket envelope.recipientId
  match bucket.find? envelope.repeats with
  | some existing =>
    (store, ⟨existing.msgId, existing.sequence, existing.queuedAt, existing.expiresAt, true⟩)
  | none =>
    let sequence := nextSequence bucket
    (⟨store.inner.insert envelope.recipientId (bucket ++ [{envelope with sequence}])⟩,
      ⟨envelope.msgId, sequence, envelope.queuedAt, envelope.expiresAt, false⟩)

/-- A pull returns at least the next envelope. -/
def pull (since : Watermark) (limit : Nat) : List StoredEnvelope :=
  ((store.bucket recipientId).filter fun envelope => since < envelope.sequence).take (max limit 1)

/-- An acknowledgement names envelopes by their message identifiers, whoever sent them. -/
def ack (msgIds : List String) : MemoryStore × Nat :=
  match store.inner.lookup recipientId with
  | none => (store, 0)
  | some bucket =>
    let kept := bucket.filter fun envelope => !msgIds.contains envelope.msgId
    (⟨store.inner.insert recipientId kept⟩, bucket.length - kept.length)

def unexpired (now : DateTime) (bucket : List StoredEnvelope) : List StoredEnvelope :=
  bucket.filter fun envelope => now < envelope.expiresAt

def purgeExpired (now : DateTime) : MemoryStore × Nat :=
  (⟨store.inner.mapValues (unexpired now)⟩,
    (store.inner.values.map fun bucket => bucket.length - (unexpired now bucket).length).sum)

def quotaUsage : QuotaUsage :=
  let bucket := store.bucket recipientId
  ⟨bucket.length, (bucket.map StoredEnvelope.wireSize).sum,
    ((bucket.map StoredEnvelope.sequence).max?).getD 0⟩

/-- The memory store does not fail and reads the clock only to purge. -/
def mailboxStore : MailboxStore MemoryStore where
  enqueue store envelope _ := ((store.enqueue envelope).1, some (store.enqueue envelope).2)
  pull store recipientId since limit _ := store.pull recipientId since limit
  ack := ack
  purgeExpired := purgeExpired
  quotaUsage store recipientId _ := store.quotaUsage recipientId

end MemoryStore
end A3Net.Mailbox
