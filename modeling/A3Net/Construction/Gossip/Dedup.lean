/-
Times are nanoseconds of one monotonic clock, and a call reads that clock whenever it asks for the
current instant.
-/

import A3Net.Construction.Types.ContentHash
import A3Net.Construction.Types.NodeId
import A3Net.Machine.Table

namespace A3Net

open Cryptography Machine

def ContentHash.asBytes (hash : ContentHash) : Bytes := bytesOfPairs (utf8 hash.text)

namespace Gossip

def defaultGossipTtlSecs : UInt64 := 3600

def nanosPerSec : Nat := 1000000000

/-- The time of the announcement is its text in RFC 3339. -/
structure Announcement where
  contentHash : ContentHash
  nodeId : NodeId
  timestamp : String
  messageId : Option String
  ttlSecs : Option UInt64

namespace Announcement

variable (announcement : Announcement)

/-- A node identifier that is not hexadecimal panics. -/
def generateMessageId : Option String := do
  let node ← announcement.nodeId.asBytes
  some (toHex (blake3 (announcement.contentHash.asBytes ++ node ++
    utf8 announcement.timestamp)).bytes)

def getOrGenerateMessageId : Option String :=
  match announcement.messageId with
  | some id => some id
  | none => announcement.generateMessageId

def effectiveTtl : Nat :=
  (announcement.ttlSecs.getD defaultGossipTtlSecs).toNat * nanosPerSec

end Announcement

/-- These are the instants that one call reads. Each sweep reads the clock for each identifier that
it looks at. -/
structure Readings where
  start : Nat
  sweep : String → Nat
  seen : Nat
  resweep : String → Nat
  finish : Nat
  start_le : ∀ id, start ≤ sweep id
  sweep_le : ∀ id, sweep id ≤ seen
  seen_le : ∀ id, seen ≤ resweep id
  resweep_le : ∀ id, resweep id ≤ finish

/-- The clock stands still during the call. -/
def Readings.at (time : Nat) : Readings where
  start := time
  sweep _ := time
  seen := time
  resweep _ := time
  finish := time
  start_le _ := Nat.le_refl time
  sweep_le _ := Nat.le_refl time
  seen_le _ := Nat.le_refl time
  resweep_le _ := Nat.le_refl time

structure MessageMeta where
  seenAt : Nat
  expiresAt : Nat

namespace MessageMeta

/-- The sum panics when it reaches the limit of the instants. -/
def new (limit now ttl : Nat) : Option MessageMeta :=
  if now + ttl < limit then some ⟨now, now + ttl⟩ else none

def isExpired (msg : MessageMeta) (now : Nat) : Bool := decide (msg.expiresAt ≤ now)

end MessageMeta

def cleanupBatchSize : Nat := 100

structure MessageCache where
  entries : Table String MessageMeta
  order : List String
  capacity : Nat

variable (limit : Nat)

namespace MessageCache

def new (capacity : Nat) : MessageCache := ⟨∅, [], capacity⟩

variable (cache : MessageCache)

def contains (id : String) : Bool := (cache.entries.lookup id).isSome

def len : Nat := cache.entries.keys.length

variable (now : String → Nat)

/-- An identifier without an entry counts as expired. -/
def expired : List String :=
  (cache.order.filter fun id =>
    ((cache.entries.lookup id).map fun msg => msg.isExpired (now id)).getD true).take
      cleanupBatchSize

def removeExpired : MessageCache :=
  let expired := cache.expired now
  { cache with
    entries := expired.foldl (fun entries id => entries.erase id) cache.entries
    order := cache.order.filter fun id => !expired.contains id }

/-- The loop drops the oldest identifier while the table is full. -/
def evictOldest (capacity : Nat) :
    Table String MessageMeta → List String → Table String MessageMeta × List String
  | entries, [] => (entries, [])
  | entries, oldest :: rest =>
    if capacity ≤ entries.keys.length then evictOldest capacity (entries.erase oldest) rest
    else (entries, oldest :: rest)

def evictIfNeeded : MessageCache :=
  let swept := cache.removeExpired now
  let (entries, order) := evictOldest swept.capacity swept.entries swept.order
  { swept with entries := entries, order := order }

/-- No result stands for a panic, which leaves the cache as it is at that point. -/
def insert (cache : MessageCache) (id : String) (ttl : Nat) (readings : Readings) :
    Option Bool × MessageCache :=
  if cache.contains id then (some false, cache)
  else
    let evicted := cache.evictIfNeeded readings.sweep
    match MessageMeta.new limit readings.seen ttl with
    | none => (none, evicted)
    | some msg =>
      (some true, { evicted with
        entries := evicted.entries.insert id msg
        order := evicted.order ++ [id] })

end MessageCache

structure DedupeFilter where
  cache : MessageCache

namespace DedupeFilter

def withCapacity (capacity : Nat) : DedupeFilter := ⟨MessageCache.new capacity⟩

/-- A panic is caught where the task ends, and the lock around the filter lets the next call in. -/
def checkAndInsert (filter : DedupeFilter) (announcement : Announcement)
    (readings : Readings) : Option Bool × DedupeFilter :=
  match announcement.getOrGenerateMessageId with
  | none => (none, filter)
  | some id =>
    match filter.cache.insert limit id announcement.effectiveTtl readings with
    | (none, cache) => (none, ⟨cache⟩)
    | (some isNew, cache) =>
      (some isNew,
        ⟨if cache.len % 100 = 0 then cache.removeExpired readings.resweep else cache⟩)

end DedupeFilter

structure Call where
  announcement : Announcement
  readings : Readings

/-- This is one accepted announcement. -/
structure Acceptance where
  id : String
  seen : Nat
  ttl : Nat
deriving DecidableEq

/-- The accepted announcements stand with the newest first. -/
structure Feed where
  filter : DedupeFilter
  accepted : List Acceptance

namespace Feed

def start (capacity : Nat) : Feed := ⟨DedupeFilter.withCapacity capacity, []⟩

def step (feed : Feed) (call : Call) : Feed :=
  match call.announcement.getOrGenerateMessageId,
      feed.filter.checkAndInsert limit call.announcement call.readings with
  | some id, (some true, filter) =>
    ⟨filter, ⟨id, call.readings.seen, call.announcement.effectiveTtl⟩ :: feed.accepted⟩
  | _, (_, filter) => ⟨filter, feed.accepted⟩

end Feed
end Gossip
end A3Net
