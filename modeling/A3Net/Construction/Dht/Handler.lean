/-
The channels of the requests are numbered in their order. Times are nanoseconds.
-/

import A3Net.Construction.Dht.Bucket
import A3Net.Construction.Dht.Store

namespace A3Net.Dht

open Cryptography

structure ProviderRecordWire where
  providerId : NodeId
  addrs : List String
  ttlSecs : UInt64
  signature : Option Bytes

structure AddProviderPayload where
  key : Bytes
  provider : ProviderRecordWire
  requestId : String
  senderId : NodeId

structure AddProviderAckPayload where
  requestId : String
  accepted : Bool
  error : Option String

structure DhtProtocolHandler (Address : Type) where
  localId : NodeId
  routingTable : RoutingTable Address
  store : InMemoryDhtStore

namespace DhtProtocolHandler

variable {Address : Type}

/-- The address of a sender is not known here. -/
def updateRoutingTable (seen : Nat) (handler : DhtProtocolHandler Address) (peer : NodeId) :
    DhtProtocolHandler Address :=
  if peer = handler.localId then handler
  else {handler with routingTable := handler.routingTable.markSeen peer seen}

/-- The record that an announcement asks for. -/
def recordOf (now : UInt64) (payload : AddProviderPayload) : ProviderRecord where
  key := ⟨payload.key⟩
  providerId := payload.provider.providerId
  providerAddr := payload.provider.addrs.headD ""
  ttlSecs := payload.provider.ttlSecs
  createdAt := now
  signature := payload.provider.signature

/-- The table has its own reading of the clock. -/
def handleAddProvider (seen : Nat) (now : UInt64) (handler : DhtProtocolHandler Address)
    (payload : AddProviderPayload) : AddProviderAckPayload × DhtProtocolHandler Address :=
  let updated := handler.updateRoutingTable seen payload.senderId
  let stored := updated.store.putProvider ⟨payload.key⟩ (recordOf now payload)
  (⟨payload.requestId, true, none⟩, {updated with store := stored.2})

end DhtProtocolHandler

inductive MessageType where
  | findNode | nodes | getProviders | providers | addProvider | addProviderAck
  | getValue | value | putValue | putAck | ping | pong

/-- The payload is what comes with the request identifier. -/
structure DhtWireMessage (Payload : Type) where
  messageType : MessageType
  requestId : String
  payload : Payload

def maxPendingRequests : Nat := 100

def requestTimeout : Nat := 5 * 10 ^ 9

structure PendingRequest where
  sentAt : Nat
  responseTx : Nat

inductive PendingRequestError where
  | tableFull (capacity : Nat)

abbrev PendingRequests := Table String PendingRequest

namespace PendingRequests

variable {Payload CodecError : Type} (pending : PendingRequests)

def registerRequest (requestId : String) (responseTx now : Nat) :
    Except PendingRequestError Unit × PendingRequests :=
  if maxPendingRequests ≤ pending.entries.length then
    (.error (.tableFull maxPendingRequests), pending)
  else (.ok (), pending.insert requestId ⟨now, responseTx⟩)

/-- The identifier of a response. A request has none. -/
def responseId (msg : DhtWireMessage Payload) : Option String :=
  match msg.messageType with
  | .nodes | .providers | .addProviderAck | .value | .putAck | .pong => some msg.requestId
  | _ => none

/-- What is sent goes to the channel of the request. -/
def handleResponse (encode : DhtWireMessage Payload → Except CodecError Bytes)
    (msg : DhtWireMessage Payload) :
    Option (Nat × Except CodecError Bytes) × PendingRequests :=
  match responseId msg with
  | none => (none, pending)
  | some id =>
    match pending.lookup id with
    | some req => (some (req.responseTx, encode msg), pending.erase id)
    | none => (none, pending)

def cleanupTimeout (now : Nat) : PendingRequests :=
  pending.keep fun req => now - req.sentAt < requestTimeout

end PendingRequests
end A3Net.Dht
