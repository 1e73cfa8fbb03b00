/-
The floating-point numbers are an interface. The history and the topic counters of a peer are left
out, because nothing that is stored depends on them.
-/

import A3Net.Construction.Types.NodeId
import A3Net.Machine.Table

namespace A3Net.Reputation

inductive InvalidReason where
  | badSignature
  | missingField
  | unknownTopic
  | oversized
  | decodeError
  | other

inductive BehaviourKind where
  | protocolViolation
  | freeRider
  | relayRefusal
  | amplification
  | authFailure
  | contentViolation

inductive ReportKind where
  | spam
  | harassment
  | impersonation
  | phishing
  | other

inductive ReputationEvent (Number : Type) where
  | validMessage (peer : NodeId) (topic : Option (List Char)) (sizeBytes : UInt32)
  | invalidMessage (peer : NodeId) (topic : Option (List Char)) (reason : InvalidReason)
  | duplicateMessage (peer : NodeId) (topic : Option (List Char))
  | firstMessageDelivery (peer : NodeId) (topic : Option (List Char))
  | meshMessageDelivery (peer : NodeId) (topic : Option (List Char))
  | slowPeer (peer : NodeId) (rttMs thresholdMs : UInt32)
  | inactivePeer (peer : NodeId)
  | behaviourPenalty (peer : NodeId) (behaviour : BehaviourKind) (count : UInt32)
  | pairingEstablished (peer : NodeId) (credentialIdShort : String)
  | pairingRevoked (peer : NodeId) (credentialIdShort : String)
  | chatTrustSet (peer : NodeId) (byUser : UInt64) (level : Int8)
  | chatTrustReport (peer : NodeId) (byUser : UInt64) (report : ReportKind)
  | manualAdjust (peer : NodeId) (delta : Number) (reason : String)
  | absoluteRestore (peer : NodeId) (score : Number) (reason : String)

/-- These are the stable tags of the events. -/
inductive EventKind where
  | validMessage
  | invalidMessage
  | duplicateMessage
  | firstMessageDelivery
  | meshMessageDelivery
  | slowPeer
  | inactivePeer
  | behaviourPenalty
  | pairingEstablished
  | pairingRevoked
  | chatTrustSet
  | chatTrustReport
  | manualAdjust
  | absoluteRestore
deriving DecidableEq

namespace ReputationEvent

variable {Number : Type}

def peer : ReputationEvent Number → NodeId
  | validMessage peer _ _ | invalidMessage peer _ _ | duplicateMessage peer _
  | firstMessageDelivery peer _ | meshMessageDelivery peer _ | slowPeer peer _ _
  | inactivePeer peer | behaviourPenalty peer _ _ | pairingEstablished peer _
  | pairingRevoked peer _ | chatTrustSet peer _ _ | chatTrustReport peer _ _
  | manualAdjust peer _ _ | absoluteRestore peer _ _ => peer

def kindTag : ReputationEvent Number → EventKind
  | validMessage _ _ _ => .validMessage
  | invalidMessage _ _ _ => .invalidMessage
  | duplicateMessage _ _ => .duplicateMessage
  | firstMessageDelivery _ _ => .firstMessageDelivery
  | meshMessageDelivery _ _ => .meshMessageDelivery
  | slowPeer _ _ _ => .slowPeer
  | inactivePeer _ => .inactivePeer
  | behaviourPenalty _ _ _ => .behaviourPenalty
  | pairingEstablished _ _ => .pairingEstablished
  | pairingRevoked _ _ => .pairingRevoked
  | chatTrustSet _ _ _ => .chatTrustSet
  | chatTrustReport _ _ _ => .chatTrustReport
  | manualAdjust _ _ _ => .manualAdjust
  | absoluteRestore _ _ _ => .absoluteRestore

end ReputationEvent

/-- Scores are clamped to a bounded range. The default parameters give an event its weight. The JSON
library prints a number that is not finite as `null` and then does not read it back. -/
structure Arithmetic (Number : Type) where
  zero : Number
  add : Number → Number → Number
  sub : Number → Number → Number
  clamp : Number → Number
  equal : DecidableEq Number
  isFinite : Number → Bool
  nonneg : Number → Bool
  delta : ReputationEvent Number → Number
  readBack : Number → Option Number
  finite_zero : isFinite zero = true
  clamp_clamp : ∀ number, clamp (clamp number) = clamp number
  finite_clamp : ∀ number, isFinite number = true → isFinite (clamp number) = true
  finite_sub : ∀ first second, isFinite first = true → isFinite second = true →
    isFinite (sub (clamp first) (clamp second)) = true
  finite_add : ∀ first second, isFinite first = true → isFinite second = true →
    isFinite (clamp (add first second)) = true
  finite_valid : ∀ peer topic size, isFinite (delta (.validMessage peer topic size)) = true
  finite_invalid : ∀ peer topic reason, isFinite (delta (.invalidMessage peer topic reason)) = true
  readBack_isSome : ∀ number, (readBack number).isSome = isFinite number
  finite_readBack : ∀ number read, readBack number = some read → isFinite read = true

inductive ReputationError where
  | nonFiniteScore (peer : List Char) (event : EventKind)
  | malformedSnapshot

structure ReputationDelta (Number : Type) where
  peer : List Char
  event : EventKind
  scoreBefore : Number
  scoreAfter : Number
  delta : Number
  tsUnix : Int
  count : UInt64

structure PeerScore (Number : Type) where
  score : Number
  lastUpdatedUnix : Int
  positiveCount : UInt64 := 0
  negativeCount : UInt64 := 0

def saturatingAdd (first second : UInt64) : UInt64 :=
  UInt64.ofNat (min (first.toNat + second.toNat) (2 ^ 64 - 1))

/-- The shards of the table are one table here. -/
abbrev PeerScoreTable (Number : Type) := Table (List Char) (PeerScore Number)

variable {Number : Type} (arith : Arithmetic Number)

def PeerScore.initial (now : Int) : PeerScore Number :=
  ⟨arith.clamp arith.zero, now, 0, 0⟩

def PeerScore.pushDelta (score : PeerScore Number) (delta : ReputationDelta Number) :
    PeerScore Number :=
  if arith.nonneg delta.delta then
    {score with positiveCount := saturatingAdd score.positiveCount 1}
  else {score with negativeCount := saturatingAdd score.negativeCount 1}

namespace PeerScoreTable

variable (table : PeerScoreTable Number)

def entry (key : List Char) (now : Int) : PeerScore Number :=
  (table.lookup key).getD (.initial arith now)

variable (event : ReputationEvent Number)

/-- The entry gets the new score, and the change is recorded. -/
def record (after : Number) (explicitCount : Option UInt64)
    (now : Int) : ReputationDelta Number × PeerScoreTable Number :=
  let key := event.peer.text
  let entry := PeerScoreTable.entry arith table key now
  let count := explicitCount.getD
    (saturatingAdd (saturatingAdd entry.positiveCount entry.negativeCount) 1)
  let delta : ReputationDelta Number :=
    ⟨key, event.kindTag, entry.score, after, arith.sub after entry.score, now, count⟩
  (delta, table.insert key
    ({entry with score := after, lastUpdatedUnix := now}.pushDelta arith delta))

/-- A restored score is not checked. A refused event leaves an entry of its peer. -/
def applyWithCount (explicitCount : Option UInt64) (now : Int) :
    Except ReputationError (ReputationDelta Number) × PeerScoreTable Number :=
  let key := event.peer.text
  let entry := PeerScoreTable.entry arith table key now
  match event with
  | .absoluteRestore _ score _ =>
    let target := arith.clamp score
    let (delta, recorded) := record arith table event target explicitCount now
    (.ok delta, recorded)
  | _ =>
    let after := arith.clamp (arith.add entry.score (arith.delta event))
    if !arith.isFinite after then
      (.error (.nonFiniteScore key event.kindTag), table.insert key entry)
    else
      let (delta, recorded) := record arith table event after explicitCount now
      (.ok delta, recorded)

def setScore (peer : NodeId) (score : Number) (now : Int) : PeerScoreTable Number :=
  table.insert peer.text
    {PeerScoreTable.entry arith table peer.text now with
      score := arith.clamp score, lastUpdatedUnix := now}

end PeerScoreTable

end A3Net.Reputation
