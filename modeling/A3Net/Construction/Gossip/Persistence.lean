/-
Times are nanoseconds of one monotonic clock. The counters are natural numbers, since no room gets
as many messages as a machine word can count.
-/

import A3Net.Construction.Gossip.Dedup
import A3Net.Machine.TableTotal
import Mathlib.Data.List.Sort

namespace A3Net.Gossip

structure StoredMessage where
  messageId : String
  roomId : String
  content : Bytes
  receivedAt : Nat
  expiresAt : Option Nat
  sequence : Nat
deriving DecidableEq

def defaultRetentionSecs : Nat := 7 * 24 * 3600

/-- The path is for stores on a disk. -/
structure PersistenceConfig where
  maxMessagesPerRoom : Nat
  retentionSecs : Nat := defaultRetentionSecs

structure MemoryMessageStore where
  messages : Table String (List StoredMessage)
  counters : Table String Nat
  config : PersistenceConfig
  maxTotal : Nat

/-- These are the instants that one call of `store` reads. The sweep reads the clock once for each
room, and a hash map lists its rooms in any order. -/
structure StoreReadings where
  now : Nat
  sweep : String → Nat
  rooms : Reading (Sigma fun _ : String => List StoredMessage)

namespace MemoryMessageStore

def usizeMax : Nat := 2 ^ 64 - 1

variable (config : PersistenceConfig)

/-- A product that does not fit a machine word panics. -/
def withConfig : Option MemoryMessageStore :=
  let maxTotal := config.maxMessagesPerRoom * 100
  if maxTotal ≤ usizeMax then some ⟨∅, ∅, config, maxTotal⟩ else none

def new (maxMessagesPerRoom : Nat) : Option MemoryMessageStore :=
  withConfig {maxMessagesPerRoom}

/-- A cleanup keeps these messages while there is room. -/
def live (now : Nat) (msg : StoredMessage) : Bool :=
  !(msg.expiresAt.any fun expiresAt => expiresAt ≤ now) &&
    !(config.retentionSecs * nanosPerSec < now - msg.receivedAt)

variable (messages : List StoredMessage)

/-- The newest message stands first. -/
def newestFirst : List StoredMessage :=
  messages.insertionSort fun first second => second.sequence ≤ first.sequence

def cleanupInternal (now : Nat) (messages : List StoredMessage) : List StoredMessage :=
  let kept := messages.filter (live config now)
  if config.maxMessagesPerRoom < kept.length then
    (newestFirst kept).take config.maxMessagesPerRoom
  else kept

/-- A room without messages comes first. -/
def oldestBefore : Option Nat → Option Nat → Bool
  | none, _ => true
  | some _, none => false
  | some first, some second => first ≤ second

def oldest : Option Nat :=
  (messages.map StoredMessage.receivedAt).min?

/-- The number of messages is not counted again after a room was cleaned. -/
def evict (config : PersistenceConfig) (total target : Nat) (sweep : String → Nat) :
    List (Sigma fun _ : String => List StoredMessage) → Table String (List StoredMessage) →
      Table String (List StoredMessage)
  | [], messages => messages
  | room :: rest, messages =>
    let messages := messages.modify room.1 (cleanupInternal config (sweep room.1))
    if total ≤ target then messages else evict config total target sweep rest messages

def totalCount (store : MemoryMessageStore) : Nat :=
  store.messages.total fun _ messages => messages.length

def roomMessages (store : MemoryMessageStore) (room : String) : List StoredMessage :=
  (store.messages.lookup room).getD []

/-- The message gets the next number of its room, and the room is cleaned. -/
def push (store : MemoryMessageStore) (room : String) (msg : StoredMessage) (now : Nat) :
    MemoryMessageStore :=
  let next := (store.counters.lookup room).getD 0 + 1
  let msg := {msg with sequence := next}
  { store with
    counters := store.counters.insert room next
    messages := store.messages.insert room
      (cleanupInternal store.config now (store.roomMessages room ++ [msg])) }

/-- Above the total limit every room is cleaned, those with the oldest messages first. -/
def sweepRooms (store : MemoryMessageStore) (readings : StoreReadings) : MemoryMessageStore :=
  let total := store.totalCount
  if store.maxTotal < total then
    let allRooms := (readings.rooms.arrange store.messages.entries).insertionSort
      fun first second => oldestBefore (oldest first.2) (oldest second.2)
    let messages :=
      evict store.config total (store.maxTotal / 2) readings.sweep allRooms store.messages
    {store with messages}
  else store

/-- The store never refuses a message. -/
def store (messages : MemoryMessageStore) (room : String) (msg : StoredMessage)
    (readings : StoreReadings) : MemoryMessageStore :=
  (messages.push room msg readings.now).sweepRooms readings

/-- Each room is cleaned with its own reading of the clock. -/
def cleanupExpired (store : MemoryMessageStore) (clock : String → Nat) :
    Nat × MemoryMessageStore :=
  let cleaned := {store with
    messages := store.messages.mapEntries fun room => cleanupInternal store.config (clock room)}
  (store.totalCount - cleaned.totalCount, cleaned)

end MemoryMessageStore

inductive StoreCall where
  | store (room : String) (msg : StoredMessage) (readings : StoreReadings)
  | cleanupExpired (clock : String → Nat)

def MemoryMessageStore.step (store : MemoryMessageStore) : StoreCall → MemoryMessageStore
  | .store room msg readings => store.store room msg readings
  | .cleanupExpired clock => (store.cleanupExpired clock).2

end A3Net.Gossip
