/-
The replay guard of the store is kept in memory only.
-/

import A3Net.Construction.Pairing.Invitation
import A3Net.Machine.Json
import A3Net.Machine.KeyedTable

namespace A3Net.Pairing

open Cryptography Machine

inductive TrustedDeviceStatus where
  | active | suspended | revoked
deriving DecidableEq

inductive TrustedDeviceRole where
  | issuer | invitee

structure TrustedDeviceRecord where
  credentialId : CredentialId
  role : TrustedDeviceRole
  deviceName : String
  pairedAtUnix : Int64
  expiresAtUnix : Int64
  lastSeenUnix : Int64
  nodeId : List Char
  transportPubkey : Bytes
  walletAddress : Option (Vector UInt8 20)
  capabilities : CapabilitySet
  status : TrustedDeviceStatus
  recordVersion : UInt64
  issuerNodeId : List Char
  revokedAtUnix : Int64

/-- A record is malformed in one of its fields. -/
structure Malformed where
  what : String
  reason : String

def Malformed.text (malformed : Malformed) : String :=
  let what := malformed.what
  let reason := malformed.reason
  s!"malformed {what}: {reason}"

namespace TrustedDeviceRecord

variable (record : TrustedDeviceRecord)

def hasCapability (cap : Capability) : Bool :=
  record.status = .active && record.capabilities.contains cap

variable (now : Int64)

def isExpired : Bool :=
  record.expiresAtUnix ≠ Int64.maxValue && record.expiresAtUnix < now

/-- A build with overflow checks panics at the greatest version, and any other build starts again
at zero. -/
def bump (overflowChecks : Bool) (record : TrustedDeviceRecord) : Option TrustedDeviceRecord :=
  if overflowChecks && record.recordVersion = 0xFFFFFFFFFFFFFFFF then none
  else some {record with recordVersion := record.recordVersion + 1}

/-- The time is written before the version. -/
def touch : TrustedDeviceRecord :=
  {record with lastSeenUnix := now}

def revoke : TrustedDeviceRecord :=
  {record with status := .revoked, revokedAtUnix := now}

/-- Only an active record takes new capabilities. -/
def updateCapabilities (caps : CapabilitySet) : Except PairingError TrustedDeviceRecord :=
  if record.status ≠ .active then .error (.deviceRevoked record.credentialId)
  else .ok {record with capabilities := caps}

def refuse (bad : Bool) (field reason : String) : Except Malformed Unit :=
  if bad then .error ⟨s!"trusted_device_record.{field}", reason⟩ else .ok ()

def checkNode (field : String) (text : List Char) : Except Malformed Unit := do
  let got := (utf8Chars text).length
  refuse (got ≠ 64) field s!"must be 64 hex chars, got {got}"
  refuse (!text.all fun char => (hexValue char).isSome) field "must be lowercase hex"

def validate : Except Malformed Unit := do
  let keyLength := record.transportPubkey.length
  let paired := record.pairedAtUnix
  let expires := record.expiresAtUnix
  let seen := record.lastSeenUnix
  let revokedAt := record.revokedAtUnix
  refuse (record.credentialId.all fun byte => byte = 0) "credential_id"
    "must not be all zeros (zero-id is invalid)"
  checkNode "node_id" record.nodeId
  checkNode "issuer_node_id" record.issuerNodeId
  refuse (keyLength ≠ 0 && keyLength ≠ 32) "transport_pubkey"
    s!"must be 32 bytes (Ed25519 pubkey) or empty for backwards-compat, got {keyLength}"
  refuse (record.recordVersion = 0) "record_version"
    "must be >= 1 (zero is a default-construct sentinel)"
  refuse (expires ≠ Int64.maxValue && expires < paired) "expires_at_unix"
    s!"expires_at ({expires}) must be after paired_at ({paired})"
  refuse (seen < paired) "last_seen_unix" s!"last_seen ({seen}) must be >= paired_at ({paired})"
  refuse (revokedAt ≠ 0 && revokedAt < paired) "revoked_at_unix"
    s!"revoked_at ({revokedAt}) must be >= paired_at ({paired})"
  refuse (record.status = .revoked && revokedAt = 0) "revoked_at_unix"
    "revoked records must have revoked_at_unix > 0"

end TrustedDeviceRecord

/-- Each record stands under its own credential. -/
abbrev DeviceTable := KeyedTable TrustedDeviceRecord.credentialId

/-- This is what the store takes from its surroundings. -/
structure Environment (Line : Type) where
  lines : LineFormat TrustedDeviceRecord Line
  withExtension : String → String → String
  overflowChecks : Bool

structure TrustedDeviceStoreConfig where
  path : String
  sync : Bool

/-- The staging file is renamed over the file of the devices. -/
structure Disk (Line : Type) where
  devices : Option (List Line) := none
  staged : Option (List Line) := none

/-- A write ends with the error of one of its steps. A broken line counts as not written. -/
inductive FlushFault where
  | create (text : String)
  | write (lines : Nat) (text : String)
  | flush (text : String)
  | sync (text : String)
  | rename (text : String)

inductive OpenFault where
  | cannotExamine
  | cannotOpen (text : String)
  | readError (line : Nat) (text : String)

/-- The hash map is read in some order, and the disk may fail. -/
structure Flush where
  reading : Reading TrustedDeviceRecord
  fault : Option FlushFault

structure TrustedDeviceStore where
  records : DeviceTable
  seenNonces : Table Nonce32 Nat

/-- A process works with its store and with the disk. -/
structure Session (Line : Type) where
  store : TrustedDeviceStore
  disk : Disk Line

variable {Line : Type} (env : Environment Line) (config : TrustedDeviceStoreConfig)
  (fault : Option OpenFault)

/-- A blank line has no record. -/
def readLine (number : Nat) (line : Line) : Except PairingError (Option TrustedDeviceRecord) :=
  let path := config.path
  match fault with
  | some (.readError failed text) =>
    if failed = number then .error (.storage s!"{path}:{number}: read error: {text}")
    else parseLine path number line
  | _ => parseLine path number line
where
  parseLine (path : String) (number : Nat) (line : Line) :
      Except PairingError (Option TrustedDeviceRecord) :=
    if env.lines.blank line then .ok none
    else
      match env.lines.decode line with
      | .error text => .error (.storage s!"{path}:{number}: JSON parse error: {text}")
      | .ok record =>
        match record.validate with
        | .error malformed =>
          let text := malformed.text
          .error (.storage s!"{path}:{number}: invalid record: {text}")
        | .ok () => .ok (some record)

/-- A line that comes later replaces an earlier one of the same credential. -/
def loadLines (fault : Option OpenFault) :
    Nat → DeviceTable → List Line → Except PairingError DeviceTable
  | _, devices, [] => .ok devices
  | number, devices, line :: rest =>
    match readLine env config fault number line with
    | .error error => .error error
    | .ok none => loadLines fault (number + 1) devices rest
    | .ok (some record) => loadLines fault (number + 1) (devices.insert record) rest

def loadFromDisk (lines : List Line) : Except PairingError DeviceTable :=
  let path := config.path
  match fault with
  | some (.cannotOpen text) => .error (.storage s!"cannot open {path}: {text}")
  | _ => loadLines env config fault 1 .empty lines

/-- A file that cannot be examined counts as absent. -/
def Disk.existing (disk : Disk Line) : Option (List Line) :=
  match fault with
  | some .cannotExamine => none
  | _ => disk.devices

/-- A store without a file is empty. Every opened store starts with an empty replay guard. -/
def TrustedDeviceStore.openAt (disk : Disk Line) : Except PairingError TrustedDeviceStore :=
  match disk.existing fault with
  | none => .ok ⟨.empty, ∅⟩
  | some lines =>
    match loadFromDisk env config fault lines with
    | .error error => .error error
    | .ok records => .ok ⟨records, ∅⟩

/-- The file is not touched before the renaming. -/
def flush (records : DeviceTable) (flush : Flush) (disk : Disk Line) :
    Except PairingError Unit × Disk Line :=
  let path := config.path
  let staged := env.withExtension path "jsonl.new"
  let lines := (flush.reading.arrange records.values).map env.lines.encode
  let written : Disk Line := {disk with staged := some lines}
  let renamed : Disk Line := ⟨some lines, none⟩
  match flush.fault with
  | some (.create text) => (.error (.storage s!"create {staged}: {text}"), disk)
  | some (.write count text) =>
    (.error (.storage s!"write {staged}: {text}"), {disk with staged := some (lines.take count)})
  | some (.flush text) =>
    if config.sync then (.error (.storage s!"fsync {staged}: {text}"), written)
    else (.ok (), renamed)
  | some (.sync text) =>
    if config.sync then (.error (.storage s!"sync {staged}: {text}"), written)
    else (.ok (), renamed)
  | some (.rename text) => (.error (.storage s!"rename {staged} -> {path}: {text}"), written)
  | none => (.ok (), renamed)

namespace TrustedDeviceStore

variable (store : TrustedDeviceStore) (id : CredentialId)

def checkCapability (cap : Capability) (now : Int64) :
    Except PairingError Bool :=
  match store.records.lookup id with
  | none => .error (.deviceNotFound id)
  | some record =>
    if record.status = .revoked then .error (.deviceRevoked id)
    else if record.isExpired now then .error (.deviceExpired id record.expiresAtUnix)
    else .ok (record.hasCapability cap)

/-- The difference stops at the bounds of a signed word of 64 bits. -/
def saturatingSub (first second : Int) : Int :=
  max (-9223372036854775808) (min 9223372036854775807 (first - second))

def pruneExpiredNonces (cutoff : Int) : TrustedDeviceStore :=
  {store with seenNonces := store.seenNonces.keep fun recordedAt => cutoff < (recordedAt : Int)}

/-- The clock counts seconds from the Unix epoch and panics before it. -/
def checkAndRecordNonce (nonce : Nonce32) (ttl : Int64) (now : Nat) :
    Except PairingError Unit × TrustedDeviceStore :=
  let pruned := store.pruneExpiredNonces (saturatingSub now ttl.toInt)
  match pruned.seenNonces.lookup nonce with
  | some _ => (.error (.nonceReplay (nonce.toList.take 8)), pruned)
  | none => (.ok (), {pruned with seenNonces := pruned.seenNonces.insert nonce now})

end TrustedDeviceStore

namespace Session

variable (session : Session Line)

/-- The records are written to disk after they were changed in memory. -/
def commit (records : DeviceTable) (how : Flush) : PairingResult Unit × Session Line :=
  let (result, disk) := flush env config records how session.disk
  (some result, ⟨{session.store with records}, disk⟩)

variable (record : TrustedDeviceRecord)

/-- A record whose version cannot grow is left changed, and nothing is written to disk. -/
def commitBumped (how : Flush) :
    PairingResult Unit × Session Line :=
  match record.bump env.overflowChecks with
  | none =>
    (none, {session with store :=
      {session.store with records := session.store.records.insert record}})
  | some bumped => session.commit env config (session.store.records.insert bumped) how

def insert (how : Flush) : PairingResult Unit × Session Line :=
  match session.store.records.lookup record.credentialId with
  | some _ =>
    let shown := record.credentialId.toList.take 4
    (some (.error (.malformed "trusted_device_store"
      s!"credential_id {shown} already exists")), session)
  | none => session.commit env config (session.store.records.insert record) how

variable (id : CredentialId)

def revoke (now : Int64) (how : Flush) : PairingResult Unit × Session Line :=
  match session.store.records.lookup id with
  | none => (some (.error (.deviceNotFound id)), session)
  | some record => session.commitBumped env config (record.revoke now) how

def updateCapabilities (caps : CapabilitySet) (how : Flush) :
    PairingResult Unit × Session Line :=
  match session.store.records.lookup id with
  | none => (some (.error (.deviceNotFound id)), session)
  | some record =>
    match record.updateCapabilities caps with
    | .error error => (some (.error error), session)
    | .ok updated => session.commitBumped env config updated how

def touch (now : Int64) (how : Flush) : PairingResult Unit × Session Line :=
  match session.store.records.lookup id with
  | none => (some (.error (.deviceNotFound id)), session)
  | some record => session.commitBumped env config (record.touch now) how

def remove (how : Flush) : PairingResult Unit × Session Line :=
  session.commit env config (session.store.records.erase id) how

def checkAndRecordNonce (nonce : Nonce32) (ttl : Int64) (now : Nat) :
    PairingResult Unit × Session Line :=
  let (result, store) := session.store.checkAndRecordNonce nonce ttl now
  (some result, {session with store})

/-- The store is closed and opened again. When that fails, the process goes on with the old one. -/
def reopen (fault : Option OpenFault) : PairingResult Unit × Session Line :=
  match TrustedDeviceStore.openAt env config fault session.disk with
  | .error error => (some (.error error), session)
  | .ok store => (some (.ok ()), {session with store})

end Session

inductive StoreCall where
  | insert (record : TrustedDeviceRecord) (how : Flush)
  | revoke (id : CredentialId) (now : Int64) (how : Flush)
  | updateCapabilities (id : CredentialId) (caps : CapabilitySet) (how : Flush)
  | touch (id : CredentialId) (now : Int64) (how : Flush)
  | remove (id : CredentialId) (how : Flush)
  | checkAndRecordNonce (nonce : Nonce32) (ttl : Int64) (now : Nat)
  | reopen (fault : Option OpenFault)

def Session.serve (session : Session Line) : StoreCall → PairingResult Unit × Session Line
  | .insert record how => session.insert env config record how
  | .revoke id now how => session.revoke env config id now how
  | .updateCapabilities id caps how => session.updateCapabilities env config id caps how
  | .touch id now how => session.touch env config id now how
  | .remove id how => session.remove env config id how
  | .checkAndRecordNonce nonce ttl now => session.checkAndRecordNonce nonce ttl now
  | .reopen fault => session.reopen env config fault

end A3Net.Pairing
