/-
A time is a number of nanoseconds of the monotonic clock.
-/

import A3Net.Construction.MeshFirewall.Rule
import A3Net.Machine.KeyedTable

namespace A3Net.MeshFirewall

inductive ConnProto where
  | tcp
  | udp
deriving DecidableEq

inductive SocketAddr where
  | v4 (ip : UInt32) (port : UInt16)
  | v6 (ip : BitVec 128) (port : UInt16) (flowInfo scopeId : UInt32)
deriving DecidableEq

structure ConnKey where
  proto : ConnProto
  peer : NodeId
  peerPort : UInt16
  localPort : UInt16
  peerAddr : SocketAddr
deriving DecidableEq

structure ConnEntry where
  key : ConnKey
  direction : Direction
  openedAt : Nat
  lastSeen : Nat

structure ConnTrackerConfig where
  idleTimeout : Nat := 300000000000
  maxEntries : Nat := 4096

inductive ConnTrackerError where
  | full (max : Nat)
deriving DecidableEq

structure ConnTracker where
  config : ConnTrackerConfig
  entries : KeyedTable ConnEntry.key

structure InboundProbe where
  proto : ConnProto
  peer : NodeId
  peerPort : UInt16

def InboundProbe.matches (probe : InboundProbe) (key : ConnKey) : Bool :=
  key.proto = probe.proto && key.peerPort = probe.peerPort && key.peer = probe.peer

namespace ConnTracker

def new (config : ConnTrackerConfig) : ConnTracker := ⟨config, .empty⟩

variable (tracker : ConnTracker) (entry : ConnEntry)

/-- A time before the last sight counts as no time at all. -/
def expired (now : Nat) : Bool :=
  tracker.config.idleTimeout < now - entry.lastSeen

def refresh (now : Nat) : ConnTracker :=
  { tracker with entries := tracker.entries.insert { entry with lastSeen := now } }

variable (key : ConnKey)

def evict : ConnTracker :=
  { tracker with entries := tracker.entries.erase key }

/-- An entry counts until it is taken out, whether it is expired or not. -/
def openOutbound (now : Nat) : Except ConnTrackerError Unit × ConnTracker :=
  if (tracker.entries.lookup key).isNone && tracker.config.maxEntries ≤ tracker.entries.values.length
  then (.error (.full tracker.config.maxEntries), tracker)
  else
    (.ok (), { tracker with entries := tracker.entries.insert ⟨key, .out, now, now⟩ })

def lookup (key : ConnKey) (now : Nat) : Bool × ConnTracker :=
  match tracker.entries.lookup key with
  | none => (false, tracker)
  | some entry =>
    if tracker.expired entry now then (false, tracker.evict key)
    else (true, tracker.refresh entry now)

variable (reading : Reading ConnEntry)

/-- This is the entry that a search in the order of the reading meets first. -/
def firstMatching (probe : InboundProbe) : Option ConnEntry :=
  (reading.arrange tracker.entries.values).find? fun entry => probe.matches entry.key

/-- The search ends at the first entry that matches, also when it is expired. -/
def lookupInbound (probe : InboundProbe) (now : Nat) :
    Bool × ConnTracker :=
  match tracker.firstMatching reading probe with
  | none => (false, tracker)
  | some entry =>
    if tracker.expired entry now then (false, tracker.evict entry.key)
    else (true, tracker.refresh entry now)

def close : Bool × ConnTracker :=
  ((tracker.entries.lookup key).isSome, tracker.evict key)

def sweep (now : Nat) : Nat × ConnTracker :=
  let kept := tracker.entries.keep fun entry => !tracker.expired entry now
  (tracker.entries.values.length - kept.values.length, { tracker with entries := kept })

end ConnTracker
end A3Net.MeshFirewall
