import A3Net.Construction.Types.NodeId
import A3Net.Cryptography.Encoding
import A3Net.Machine.Table

namespace A3Net.Dht

open Cryptography

/-- A key is any string of bytes. -/
structure DhtKey where
  bytes : Bytes
deriving DecidableEq

structure ProviderRecord where
  key : DhtKey
  providerId : NodeId
  providerAddr : String
  ttlSecs : UInt64
  createdAt : UInt64
  signature : Option Bytes
deriving DecidableEq

/-- The library checks a signature of a node under its public key. -/
abbrev Verifier := NodeId → Bytes → Bytes → Bool

namespace ProviderRecord

variable (record : ProviderRecord)

/-- Every field of varying size stands behind its length in four bytes. -/
def signingData : Option Bytes := do
  let keyBytes := record.key.bytes
  let providerIdBytes ← record.providerId.asBytes
  let providerAddrBytes := utf8 record.providerAddr
  return bigEndian 4 keyBytes.length ++ keyBytes ++
    bigEndian 4 providerIdBytes.length ++ providerIdBytes ++
    bigEndian 4 providerAddrBytes.length ++ providerAddrBytes ++
    bigEndian 8 record.ttlSecs.toNat

/-- No result stands for the panic of a provider identifier that is not hexadecimal. -/
def verifySignature (verifier : Verifier) : Option Bool :=
  match record.signature with
  | some signature => record.signingData.map fun data => verifier record.providerId data signature
  | none => some false

/-- The end of the lifetime saturates at the greatest word. -/
def isExpired (now : UInt64) : Bool :=
  min (record.createdAt.toNat + record.ttlSecs.toNat) (2 ^ 64 - 1) < now.toNat

end ProviderRecord

structure IpnRecord where
  name : DhtKey
  value : String
  sequence : UInt64
  ttlSecs : UInt64
  created : UInt64
  expires : UInt64
  signature : Bytes
deriving DecidableEq

def IpnRecord.signingData (record : IpnRecord) : Bytes :=
  let nameBytes := record.name.bytes
  let valueBytes := utf8 record.value
  bigEndian 4 nameBytes.length ++ nameBytes ++ bigEndian 4 valueBytes.length ++ valueBytes ++
    bigEndian 8 record.sequence.toNat ++ bigEndian 8 record.created.toNat ++
    bigEndian 8 record.expires.toNat

structure DhtValue where
  data : Bytes
  timestamp : UInt64
  ttlSecs : UInt64

/-- The sum wraps, where a build with overflow checks panics. -/
def DhtValue.isExpired (value : DhtValue) (now : UInt64) : Bool :=
  value.timestamp + value.ttlSecs < now

/-- A store answers and changes. The calls that look at expiry take the time. -/
structure DhtStorage (Store : Type) where
  putProvider : Store → DhtKey → ProviderRecord → Bool × Store
  getProviders : Store → DhtKey → UInt64 → List ProviderRecord × Store
  removeExpiredProviders : Store → UInt64 → Nat × Store
  putIpns : Store → DhtKey → IpnRecord → Bool × Store
  getIpns : Store → DhtKey → Option IpnRecord
  putValue : Store → DhtKey → DhtValue → Bool × Store
  getValue : Store → DhtKey → Option DhtValue
  removeExpiredValues : Store → UInt64 → Nat × Store

/-- This is one call of a store with its arguments. -/
inductive StoreCall where
  | putProvider (key : DhtKey) (record : ProviderRecord)
  | getProviders (key : DhtKey)
  | removeExpiredProviders
  | putIpns (name : DhtKey) (record : IpnRecord)
  | getIpns (name : DhtKey)
  | putValue (key : DhtKey) (value : DhtValue)
  | getValue (key : DhtKey)
  | removeExpiredValues

structure TimedCall where
  call : StoreCall
  now : UInt64

/-- This is what a call of a store returns. -/
inductive StoreAnswer where
  | stored (done : Bool)
  | providers (records : List ProviderRecord)
  | ipns (record : Option IpnRecord)
  | value (value : Option DhtValue)
  | removed (count : Nat)

def DhtStorage.serve {Store : Type} (storage : DhtStorage Store) (store : Store)
    (timed : TimedCall) : StoreAnswer × Store :=
  match timed.call with
  | .putProvider key record => (storage.putProvider store key record).map .stored id
  | .getProviders key => (storage.getProviders store key timed.now).map .providers id
  | .removeExpiredProviders => (storage.removeExpiredProviders store timed.now).map .removed id
  | .putIpns name record => (storage.putIpns store name record).map .stored id
  | .getIpns name => (.ipns (storage.getIpns store name), store)
  | .putValue key value => (storage.putValue store key value).map .stored id
  | .getValue key => (.value (storage.getValue store key), store)
  | .removeExpiredValues => (storage.removeExpiredValues store timed.now).map .removed id

structure InMemoryDhtStore where
  providers : Table DhtKey (List ProviderRecord) := ∅
  ipns : Table DhtKey IpnRecord := ∅
  values : Table DhtKey DhtValue := ∅

namespace InMemoryDhtStore

variable (store : InMemoryDhtStore) (key : DhtKey)

/-- The records under a key, expired ones included. -/
def recordsAt : List ProviderRecord :=
  (store.providers.lookup key).getD []

/-- A record replaces the records of its provider. -/
def putProvider (record : ProviderRecord) : Bool × InMemoryDhtStore :=
  let others := (store.recordsAt key).filter fun other => other.providerId ≠ record.providerId
  (true, {store with providers := store.providers.insert key (others ++ [record])})

variable (now : UInt64)

def getProviders : List ProviderRecord :=
  (store.recordsAt key).filter fun record => !record.isExpired now

/-- A key without records goes. -/
def removeExpiredProviders : Nat × InMemoryDhtStore :=
  let kept (records : List ProviderRecord) := records.filter fun record => !record.isExpired now
  ((store.providers.values.map fun records => records.length - (kept records).length).sum,
    {store with providers := (store.providers.mapValues kept).keep fun records => !records.isEmpty})

/-- A record that is not newer is refused. -/
def putIpns (name : DhtKey) (record : IpnRecord) : Bool × InMemoryDhtStore :=
  match store.ipns.lookup name with
  | some existing =>
    if record.sequence ≤ existing.sequence then (false, store)
    else (true, {store with ipns := store.ipns.insert name record})
  | none => (true, {store with ipns := store.ipns.insert name record})

def getIpns (name : DhtKey) : Option IpnRecord := store.ipns.lookup name

def putValue (value : DhtValue) : Bool × InMemoryDhtStore :=
  (true, {store with values := store.values.insert key value})

def getValue : Option DhtValue := store.values.lookup key

def removeExpiredValues : Nat × InMemoryDhtStore :=
  ((store.values.values.filter fun value => value.isExpired now).length,
    {store with values := store.values.keep fun value => !value.isExpired now})

def dhtStorage : DhtStorage InMemoryDhtStore where
  putProvider := putProvider
  getProviders store key now := (store.getProviders key now, store)
  removeExpiredProviders := removeExpiredProviders
  putIpns := putIpns
  getIpns := getIpns
  putValue := putValue
  getValue := getValue
  removeExpiredValues := removeExpiredValues

end InMemoryDhtStore
end A3Net.Dht
