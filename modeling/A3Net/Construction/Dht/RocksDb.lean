/-
The database is an ordered map that does not fail.
-/

import A3Net.Construction.Dht.Store
import A3Net.Machine.Json

namespace A3Net.Dht

open Cryptography Machine

/-- The signature of a provider record is not printed, and a value does not read as a provider
record. -/
structure Codec (Blob : Type) where
  provider : Serialiser Option ProviderRecord Blob (fun _ => True) ({· with signature := none})
  ipns : Serialiser Option IpnRecord Blob (fun _ => True) id
  value : Serialiser Option DhtValue Blob (fun _ => True) id
  value_not_provider : ∀ record, provider.decode (value.encode record) = none

structure RocksDbDhtStore (Blob : Type) where
  db : Table Bytes Blob := ∅

/-- The three kinds of records have the letters `P`, `I` and `V`. -/
def providerByte : UInt8 := 0x50

def ipnsByte : UInt8 := 0x49

def valueByte : UInt8 := 0x56

namespace RocksDbDhtStore

variable {Blob : Type} (codec : Codec Blob)

def makeKey (first : UInt8) (key : DhtKey) : Bytes := first :: key.bytes

variable (store : RocksDbDhtStore Blob)

def put (key : Bytes) (blob : Blob) : Bool × RocksDbDhtStore Blob :=
  (true, ⟨store.db.insert key blob⟩)

/-- Without an extractor the iterator goes from the prefix to the end of the database. -/
def prefixIterator (first : UInt8) : List (Bytes × Blob) :=
  (store.db.entries.map fun entry => (entry.1, entry.2)).filter fun entry => [first] ≤ entry.1

def delete (keys : List Bytes) : RocksDbDhtStore Blob :=
  ⟨keys.foldl (fun db key => db.erase key) store.db⟩

variable (key : DhtKey)

def putProvider (record : ProviderRecord) : Bool × RocksDbDhtStore Blob :=
  store.put (makeKey providerByte key) (codec.provider.encode record)

/-- A key has one record, and an expired one is deleted. -/
def getProviders (now : UInt64) : List ProviderRecord × RocksDbDhtStore Blob :=
  match (store.db.lookup (makeKey providerByte key)).bind codec.provider.decode with
  | some record =>
    if record.isExpired now then ([], store.delete [makeKey providerByte key])
    else ([record], store)
  | none => ([], store)

variable (now : UInt64)

def expiredProviders : List (Bytes × Blob) :=
  (store.prefixIterator providerByte).filter fun entry =>
    match codec.provider.decode entry.2 with
    | some record => record.isExpired now
    | none => false

def removeExpiredProviders : Nat × RocksDbDhtStore Blob :=
  let expired := store.expiredProviders codec now
  (expired.length, store.delete (expired.map Prod.fst))

/-- The record is stored without a look at the old one. -/
def putIpns (name : DhtKey) (record : IpnRecord) : Bool × RocksDbDhtStore Blob :=
  store.put (makeKey ipnsByte name) (codec.ipns.encode record)

def getIpns (name : DhtKey) : Option IpnRecord :=
  (store.db.lookup (makeKey ipnsByte name)).bind codec.ipns.decode

def putValue (value : DhtValue) : Bool × RocksDbDhtStore Blob :=
  store.put (makeKey valueByte key) (codec.value.encode value)

def getValue : Option DhtValue :=
  (store.db.lookup (makeKey valueByte key)).bind codec.value.decode

def expiredValues : List (Bytes × Blob) :=
  (store.prefixIterator valueByte).filter fun entry =>
    match codec.value.decode entry.2 with
    | some value => value.isExpired now
    | none => false

def removeExpiredValues : Nat × RocksDbDhtStore Blob :=
  let expired := store.expiredValues codec now
  (expired.length, store.delete (expired.map Prod.fst))

def dhtStorage : DhtStorage (RocksDbDhtStore Blob) where
  putProvider := putProvider codec
  getProviders := getProviders codec
  removeExpiredProviders := removeExpiredProviders codec
  putIpns := putIpns codec
  getIpns := getIpns codec
  putValue := putValue codec
  getValue := getValue codec
  removeExpiredValues := removeExpiredValues codec

end RocksDbDhtStore

/-- A memory store stands before the database. -/
structure TieredDhtStore (Blob : Type) where
  memory : InMemoryDhtStore := {}
  rocksdb : RocksDbDhtStore Blob := {}

namespace TieredDhtStore

variable {Blob : Type} (codec : Codec Blob) (store : TieredDhtStore Blob) (key : DhtKey)

def putProvider (record : ProviderRecord) :
    Bool × TieredDhtStore Blob :=
  let (_, memory) := store.memory.putProvider key record
  let (done, rocksdb) := store.rocksdb.putProvider codec key record
  (done, ⟨memory, rocksdb⟩)

/-- Records that only the database has are put into the memory. -/
def getProviders (now : UInt64) :
    List ProviderRecord × TieredDhtStore Blob :=
  let l1 := store.memory.getProviders key now
  if !l1.isEmpty then (l1, store)
  else
    let (l2, rocksdb) := store.rocksdb.getProviders codec key now
    (l2, ⟨l2.foldl (fun memory record => (memory.putProvider key record).2) store.memory, rocksdb⟩)

/-- The two numbers are added. -/
def removeExpiredProviders (now : UInt64) :
    Nat × TieredDhtStore Blob :=
  let (first, memory) := store.memory.removeExpiredProviders now
  let (second, rocksdb) := store.rocksdb.removeExpiredProviders codec now
  (first + second, ⟨memory, rocksdb⟩)

def putIpns (name : DhtKey) (record : IpnRecord) :
    Bool × TieredDhtStore Blob :=
  let (_, memory) := store.memory.putIpns name record
  let (done, rocksdb) := store.rocksdb.putIpns codec name record
  (done, ⟨memory, rocksdb⟩)

def getIpns (name : DhtKey) : Option IpnRecord :=
  (store.memory.getIpns name).or (store.rocksdb.getIpns codec name)

def putValue (value : DhtValue) :
    Bool × TieredDhtStore Blob :=
  let (_, memory) := store.memory.putValue key value
  let (done, rocksdb) := store.rocksdb.putValue codec key value
  (done, ⟨memory, rocksdb⟩)

def getValue : Option DhtValue :=
  (store.memory.getValue key).or (store.rocksdb.getValue codec key)

def removeExpiredValues (now : UInt64) :
    Nat × TieredDhtStore Blob :=
  let (first, memory) := store.memory.removeExpiredValues now
  let (second, rocksdb) := store.rocksdb.removeExpiredValues codec now
  (first + second, ⟨memory, rocksdb⟩)

def dhtStorage : DhtStorage (TieredDhtStore Blob) where
  putProvider := putProvider codec
  getProviders := getProviders codec
  removeExpiredProviders := removeExpiredProviders codec
  putIpns := putIpns codec
  getIpns := getIpns codec
  putValue := putValue codec
  getValue := getValue codec
  removeExpiredValues := removeExpiredValues codec

end TieredDhtStore
end A3Net.Dht
