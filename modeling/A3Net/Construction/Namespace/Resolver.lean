/-
A call takes one step for each time it holds the lock of the cache, and the calls of all tasks take
their steps in any order.
-/

import A3Net.Construction.Namespace.Ipns

namespace A3Net.Ipns

open Cryptography

inductive TrustLevel where
  | trusted
  | network
  | verified
deriving DecidableEq

abbrev Cache := String → Option IpnRecord

namespace Cache

variable (cache : Cache) (record : IpnRecord)

/-- The cached record is at least as new. -/
def isStale : Bool :=
  match cache record.name with
  | some existing => record.sequence ≤ existing.sequence
  | none => false

/-- The method holds the write lock from its first line to its last. -/
def cacheRecordVerified (trustLevel : TrustLevel) (now : UInt64) : Cache :=
  if trustLevel = .network ∧ record.signature.isEmpty then cache
  else if cache.isStale record then cache
  else if record.isExpired now then cache
  else Function.update cache record.name (some record)

/-- The clock is read again for each record. -/
def clearExpired (now : IpnRecord → UInt64) : Cache := fun name =>
  (cache name).filter fun record => !record.isExpired (now record)

def getCached (name : String) (now : UInt64) : Option IpnRecord :=
  (cache name).filter fun record => !record.isExpired now

end Cache

/-- This is what `verify_and_cache` checks without a lock. -/
def IpnRecord.verify (lib : Ed25519) (record : IpnRecord) (publicKey : Bytes) (now : UInt64) :
    Except IpnsError Unit :=
  if publicKey.length ≠ 32 then .error (.invalidKey "Invalid public key length")
  else
    match lib.fromBytes publicKey with
    | .error error => .error error
    | .ok verifier =>
      if !record.verifySignature verifier then .error .invalidSignature
      else if record.isExpired now then .error .expired
      else .ok ()

/-- What a task has left to do of its call of `verify_and_cache`. -/
inductive VerifyPhase where
  | idle
  | verifying (record : IpnRecord) (publicKey : Bytes)
  | caching (record : IpnRecord)
deriving DecidableEq

structure IpnResolver (tasks : Nat) where
  cache : Cache
  phase : Fin tasks → VerifyPhase

/-- A task may call `verify_and_cache` again after each return. -/
inductive ResolverEvent (tasks : Nat) where
  | cacheRecordVerified (record : IpnRecord) (trustLevel : TrustLevel) (now : UInt64)
  | verifyAndCache (task : Fin tasks) (record : IpnRecord) (publicKey : Bytes)
  | verify (task : Fin tasks) (now : UInt64)
  | commit (task : Fin tasks) (now : UInt64)
  | clearExpired (now : IpnRecord → UInt64)

/-- A call of `verify_and_cache` returns this for its record. -/
structure VerifyReturn where
  record : IpnRecord
  result : Except IpnsError Bool

namespace IpnResolver

variable {tasks : Nat}

def new : IpnResolver tasks := ⟨fun _ => none, fun _ => .idle⟩

variable (resolver : IpnResolver tasks)

def goto (task : Fin tasks) (phase : VerifyPhase) :
    IpnResolver tasks :=
  {resolver with phase := Function.update resolver.phase task phase}

/-- The call returns to its task. -/
def finish (task : Fin tasks) (record : IpnRecord)
    (result : Except IpnsError Bool) : IpnResolver tasks × Option VerifyReturn :=
  (resolver.goto task .idle, some ⟨record, result⟩)

variable (lib : Ed25519) (resolver : IpnResolver tasks)

/-- The last step of `verify_and_cache` answers `true` whatever happened to the record under the
write lock. -/
def act :
    ResolverEvent tasks → IpnResolver tasks × Option VerifyReturn
  | .cacheRecordVerified record trustLevel now =>
    ({resolver with cache := resolver.cache.cacheRecordVerified record trustLevel now}, none)
  | .verifyAndCache task record publicKey =>
    match resolver.phase task with
    | .idle =>
      if resolver.cache.isStale record then resolver.finish task record (.ok false)
      else (resolver.goto task (.verifying record publicKey), none)
    | _ => (resolver, none)
  | .verify task now =>
    match resolver.phase task with
    | .verifying record publicKey =>
      match record.verify lib publicKey now with
      | .error error => resolver.finish task record (.error error)
      | .ok () => (resolver.goto task (.caching record), none)
    | _ => (resolver, none)
  | .commit task now =>
    match resolver.phase task with
    | .caching record =>
      finish {resolver with cache := resolver.cache.cacheRecordVerified record .verified now}
        task record (.ok true)
    | _ => (resolver, none)
  | .clearExpired now => ({resolver with cache := resolver.cache.clearExpired now}, none)

def step (event : ResolverEvent tasks) : IpnResolver tasks :=
  (resolver.act lib event).1

def returned (event : ResolverEvent tasks) : Option VerifyReturn :=
  (resolver.act lib event).2

end IpnResolver
end A3Net.Ipns
