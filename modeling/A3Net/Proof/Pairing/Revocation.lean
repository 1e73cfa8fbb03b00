import A3Net.Construction.Pairing.DeviceStore
import A3Net.Machine.Run

namespace A3Net.Pairing

open Machine TrustedDeviceStore List

variable {Line : Type} {env : Environment Line} {config : TrustedDeviceStoreConfig}
  {record : TrustedDeviceRecord} {fault : Option OpenFault} {number : Nat}

/-- A printed line is read back or it is an error. -/
theorem readLine_print {read : Option TrustedDeviceRecord}
    (done : readLine env config fault number (env.lines.encode record) = .ok read) :
    read = some record := by
  have parsed : ∀ path, readLine.parseLine env path number (env.lines.encode record) =
      .ok read → read = some record := by
    intro path
    have back : env.lines.decode (env.lines.encode record) = .ok record :=
      env.lines.decode_encode record trivial
    simp only [readLine.parseLine, env.lines.visible, back, Bool.false_eq_true, if_false]
    split
    · intro contrary
      cases contrary
    · intro same
      exact (Except.ok.inj same).symm
  simp only [readLine] at done
  split at done
  · split at done
    · cases done
    · exact parsed _ done
  · exact parsed _ done

variable {devices : DeviceTable}

/-- A table that was loaded from printed records has their last ones and keeps the others. -/
theorem loadLines_print {loaded : DeviceTable} {records : List TrustedDeviceRecord}
    (done : loadLines env config fault number devices (records.map env.lines.encode) =
      .ok loaded) : loaded = records.foldl KeyedTable.insert devices := by
  induction records generalizing number devices with
  | nil => exact (Except.ok.inj done).symm
  | cons record rest ih =>
    rw [map_cons, loadLines] at done
    split at done
    · cases done
    · next read => cases readLine_print read
    · next read =>
      obtain rfl := Option.some.inj (readLine_print read)
      exact ih done

theorem foldl_insert_lookup (records : List TrustedDeviceRecord) (devices : DeviceTable)
    {id : CredentialId} (member : record ∈ records) (own : record.credentialId = id)
    (only : ∀ other ∈ records, other.credentialId = id → other = record) :
    (records.foldl KeyedTable.insert devices).lookup id = some record := by
  -- The record is found once its line was read, and no later line replaces it by another one.
  have kept : ∀ (rest : List TrustedDeviceRecord) (devices : DeviceTable),
      (∀ other ∈ rest, other.credentialId = id → other = record) →
        devices.lookup id = some record →
          (rest.foldl KeyedTable.insert devices).lookup id = some record := by
    intro rest
    induction rest with
    | nil => exact fun _ _ found => found
    | cons head rest ih =>
      intro devices only found
      apply ih _ (forall_mem_cons.mp only).2
      rw [KeyedTable.lookup_insert]
      split
      · next same => rw [only head mem_cons_self same.symm]
      · exact found
  induction records generalizing devices with
  | nil => cases member
  | cons head rest ih =>
    have onlyRest : ∀ other ∈ rest, other.credentialId = id → other = record :=
      (forall_mem_cons.mp only).2
    rcases mem_cons.mp member with rfl | later
    · apply kept rest _ onlyRest
      rw [KeyedTable.lookup_insert, if_pos own.symm]
    · exact ih _ later onlyRest

/-- A record in the file is found after every successful load. -/
def Disk.Holds (env : Environment Line) (config : TrustedDeviceStoreConfig)
    (disk : Disk Line) (test : DeviceTable → Prop) : Prop :=
  ∃ lines, disk.devices = some lines ∧
    ∀ fault loaded, loadFromDisk env config fault lines = .ok loaded → test loaded

variable {records : DeviceTable} {how : Flush}

theorem flush_cases {disk : Disk Line} :
    ((flush env config records how disk).2.devices = disk.devices ∧
      ∃ error, (flush env config records how disk).1 = .error error) ∨
    (flush env config records how disk).2.devices =
      some ((how.reading.arrange records.values).map env.lines.encode) := by
  fun_cases flush env config records how disk with
  | case4 | case6 | case8 => exact Or.inr rfl
  | _ => exact Or.inl ⟨rfl, _, rfl⟩

/-- What was written is what is loaded. -/
theorem load_written {loaded : DeviceTable} {reading : Reading TrustedDeviceRecord}
    {id : CredentialId} (done : loadFromDisk env config fault
      ((reading.arrange records.values).map env.lines.encode) = .ok loaded)
    (found : records.lookup id = some record) : loaded.lookup id = some record := by
  have lines : loadLines env config fault 1 .empty
      ((reading.arrange records.values).map env.lines.encode) = .ok loaded := by
    simp only [loadFromDisk] at done
    split at done
    · cases done
    · exact done
  have arranged := reading.perm records.values
  obtain ⟨stored, own⟩ := records.lookup_iff.mp found
  rw [loadLines_print lines]
  apply foldl_insert_lookup _ _ (arranged.mem_iff.mpr stored) own
  intro other member same
  have again := records.lookup_iff.mpr ⟨arranged.mem_iff.mp member, same⟩
  exact Option.some.inj (again.symm.trans found)

variable (env) (config)

def DeviceTable.Revoked (id : CredentialId) (devices : DeviceTable) : Prop :=
  ∃ record, devices.lookup id = some record ∧ record.status = .revoked

/-- The device is revoked in memory and in the file. -/
structure Session.Revoked (id : CredentialId) (session : Session Line) : Prop where
  memory : session.store.records.Revoked id
  disk : session.disk.Holds env config (DeviceTable.Revoked id)

variable {env config} {id : CredentialId} {session : Session Line}

theorem DeviceTable.Revoked.insert (revoked : devices.Revoked id)
    (own : record.credentialId = id → record.status = .revoked) :
    DeviceTable.Revoked id (devices.insert record) := by
  rw [Revoked, KeyedTable.lookup_insert]
  split
  · next same => exact ⟨record, rfl, own same.symm⟩
  · exact revoked

/-- A write either fails and leaves the file, or it writes what is in memory. -/
theorem Session.Revoked.commit (memory : records.Revoked id)
    (before : session.disk.Holds env config (DeviceTable.Revoked id) ∨
      (session.commit env config records how).1 = some (.ok ())) :
    (session.commit env config records how).2.Revoked env config id := by
  refine ⟨memory, ?_⟩
  have result : (session.commit env config records how).1 =
      some (flush env config records how session.disk).1 := rfl
  have after : (session.commit env config records how).2.disk =
      (flush env config records how session.disk).2 := rfl
  unfold Disk.Holds
  rw [after]
  rcases flush_cases with ⟨same, error, failed⟩ | written
  · rw [same]
    rcases before with held | ok
    · exact held
    · rw [result, failed] at ok
      cases ok
  · refine ⟨_, written, fun fault loaded done => ?_⟩
    obtain ⟨record, found, status⟩ := memory
    exact ⟨record, load_written done found, status⟩

theorem TrustedDeviceRecord.bump_some {bumped : TrustedDeviceRecord} {checks : Bool}
    (grown : record.bump checks = some bumped) :
    bumped.credentialId = record.credentialId ∧ bumped.status = record.status := by
  simp only [bump] at grown
  split at grown
  · cases grown
  · obtain rfl := Option.some.inj grown
    exact ⟨rfl, rfl⟩

section

variable (revoked : session.Revoked env config id)
include revoked

variable (other : CredentialId)

theorem Session.Revoked.commitBumped (own : record.credentialId = id → record.status = .revoked)
    (how : Flush) :
    (session.commitBumped env config record how).2.Revoked env config id := by
  unfold Session.commitBumped
  split
  · exact ⟨revoked.memory.insert own, revoked.disk⟩
  · next bumped grown =>
    obtain ⟨sameId, sameStatus⟩ := TrustedDeviceRecord.bump_some grown
    apply Session.Revoked.commit _ (Or.inl revoked.disk)
    apply revoked.memory.insert
    intro same
    rw [sameStatus]
    exact own (sameId ▸ same)

theorem Session.Revoked.own {other : CredentialId}
    (found : session.store.records.lookup other = some record) (same : record.credentialId = id) :
    record.status = .revoked := by
  obtain ⟨stored, lookup, status⟩ := revoked.memory
  have keyed := session.store.records.keyed other record found
  rw [← same, keyed, found] at lookup
  rw [Option.some.inj lookup]
  exact status

/-- A device that is there cannot be inserted. -/
theorem Session.Revoked.insert (record : TrustedDeviceRecord) (how : Flush) :
    (session.insert env config record how).2.Revoked env config id := by
  unfold Session.insert
  split
  · exact revoked
  · next absent =>
    apply Session.Revoked.commit _ (Or.inl revoked.disk)
    apply revoked.memory.insert
    intro same
    obtain ⟨stored, lookup, _⟩ := revoked.memory
    rw [same, lookup] at absent
    cases absent

/-- New capabilities leave the status. -/
theorem Session.Revoked.updateCapabilities (caps : CapabilitySet) (how : Flush) :
    (session.updateCapabilities env config other caps how).2.Revoked env config id := by
  unfold Session.updateCapabilities
  split
  · exact revoked
  · next record found =>
    simp only [TrustedDeviceRecord.updateCapabilities]
    split
    · exact revoked
    · next updated changed =>
      split at changed
      · cases changed
      · obtain rfl := Except.ok.inj changed
        apply revoked.commitBumped _ how
        intro same
        have status : record.status = .revoked := revoked.own found same
        exact status

theorem Session.Revoked.touch (now : Int64) (how : Flush) :
    (session.touch env config other now how).2.Revoked env config id := by
  unfold Session.touch
  split
  · exact revoked
  · next record found =>
    apply revoked.commitBumped _ how
    intro same
    have status : record.status = .revoked := revoked.own found same
    exact status

/-- The file that is examined has the revoked device. -/
theorem Session.Revoked.reopen (examined : fault ≠ some .cannotExamine) :
    (session.reopen env config fault).2.Revoked env config id := by
  unfold Session.reopen
  split
  · exact revoked
  · next store opened =>
    refine ⟨?_, revoked.disk⟩
    obtain ⟨lines, written, holds⟩ := revoked.disk
    have existing : session.disk.existing fault = some lines := by
      unfold Disk.existing
      split
      · contradiction
      · exact written
    simp only [openAt, existing] at opened
    split at opened
    · cases opened
    · next records loaded =>
      obtain rfl := Except.ok.inj opened
      exact holds fault records loaded

end

/-- Only the removal of the device, and an opening that cannot examine the file, end the
revocation. -/
def StoreCall.Keeps (id : CredentialId) : StoreCall → Prop
  | .remove other _ => other ≠ id
  | .reopen fault => fault ≠ some .cannotExamine
  | _ => True

theorem Session.Revoked.serve (revoked : session.Revoked env config id) (call : StoreCall)
    (kept : call.Keeps id) :
    (session.serve env config call).2.Revoked env config id := by
  cases call with
  | insert record how => exact revoked.insert record how
  | revoke other now how =>
    simp only [Session.serve, Session.revoke]
    split
    · exact revoked
    · exact revoked.commitBumped (fun _ => rfl) how
  | updateCapabilities other caps how => exact revoked.updateCapabilities other caps how
  | touch other now how => exact revoked.touch other now how
  | remove other how =>
    apply Session.Revoked.commit _ (Or.inl revoked.disk)
    rw [DeviceTable.Revoked, KeyedTable.lookup_erase, if_neg (Ne.symm kept)]
    exact revoked.memory
  | checkAndRecordNonce nonce ttl now =>
    refine ⟨?_, revoked.disk⟩
    simp only [Session.serve, Session.checkAndRecordNonce, TrustedDeviceStore.checkAndRecordNonce]
    split <;> exact revoked.memory
  | reopen fault => exact revoked.reopen kept

/-- The revocation that succeeds puts the device into memory and into the file. -/
theorem Session.revoke_revoked {now : Int64}
    (done : (session.revoke env config id now how).1 = some (.ok ())) :
    (session.revoke env config id now how).2.Revoked env config id := by
  unfold Session.revoke at done ⊢
  split at done
  · cases done
  · next record found =>
    have keyed := session.store.records.keyed id record found
    unfold Session.commitBumped at done ⊢
    split at done
    · cases done
    · next bumped grown =>
      obtain ⟨sameId, sameStatus⟩ := TrustedDeviceRecord.bump_some grown
      apply Session.Revoked.commit _ (Or.inr done)
      refine ⟨bumped, ?_, sameStatus⟩
      rw [KeyedTable.lookup_insert, if_pos]
      exact (sameId.trans keyed).symm

/-- After a successful revocation no later call makes the device usable again, unless the store is
opened while its file cannot be examined. -/
theorem revocation_final {Line : Type} (env : Environment Line)
    (config : TrustedDeviceStoreConfig) (session : Session Line) (id : CredentialId) (now : Int64)
    (how : Flush) (revoked : (session.revoke env config id now how).1 = some (.ok ()))
    (calls : List StoreCall) (kept : ∀ how, .remove id how ∉ calls)
    (examined : .reopen (some .cannotExamine) ∉ calls) (cap : Capability) (later : Int64) :
    (run (fun session call => (session.serve env config call).2)
      (session.revoke env config id now how).2 calls).store.checkCapability id cap later ≠
        .ok true := by
  have guarded : Guarded (fun session call => (session.serve env config call).2)
      (fun _ call => call.Keeps id) (session.revoke env config id now how).2 calls := by
    apply guarded_of_invariant _ (fun _ => True)
    · intro _ call member _
      cases call with
      | remove other how => exact fun same => kept how (same ▸ member)
      | reopen fault => exact fun same => examined (same ▸ member)
      | insert | revoke | updateCapabilities | touch | checkAndRecordNonce => trivial
    · exact fun _ _ _ => trivial
    · trivial
  have always : Always (fun session call => (session.serve env config call).2)
      (Session.Revoked env config id) (session.revoke env config id now how).2
      calls :=
    guarded.always _ (fun _ call holds allowed => holds.serve call allowed)
      (Session.revoke_revoked revoked)
  obtain ⟨record, found, status⟩ := always.final.memory
  simp only [checkCapability, found, status, if_true]
  exact nofun

def plainLines : Environment TrustedDeviceRecord where
  lines := .plain _
  withExtension path extension := path ++ "." ++ extension
  overflowChecks := true

def sampleConfig : TrustedDeviceStoreConfig := ⟨"devices.jsonl", true⟩

def sampleId : CredentialId := Vector.replicate 16 1

def sampleRecord : TrustedDeviceRecord where
  credentialId := sampleId
  role := .issuer
  deviceName := "phone"
  pairedAtUnix := 1
  expiresAtUnix := Int64.maxValue
  lastSeenUnix := 1
  nodeId := replicate 64 'a'
  transportPubkey := []
  walletAddress := none
  capabilities := ⟨[.chat]⟩
  status := .active
  recordVersion := 1
  issuerNodeId := replicate 64 'b'
  revokedAtUnix := 0

def wholeWrite : Flush := ⟨.plain TrustedDeviceRecord, none⟩

def sampleSession : Session TrustedDeviceRecord :=
  ⟨⟨KeyedTable.empty.insert sampleRecord, ∅⟩, {}⟩

/-- The device is inserted again before and after the store was opened again. -/
def secondTry : List StoreCall :=
  [.insert sampleRecord wholeWrite, .reopen none, .insert sampleRecord wholeWrite]

theorem revocation_final_secondTry :
    (run (fun session call => (session.serve plainLines sampleConfig call).2)
      (sampleSession.revoke plainLines sampleConfig sampleId 2 wholeWrite).2
        secondTry).store.checkCapability sampleId .chat 3 ≠ .ok true := by
  apply revocation_final plainLines sampleConfig sampleSession sampleId 2 wholeWrite
  · rfl
  · intro how member
    simp [secondTry] at member
  · simp [secondTry]

/-- The store is opened while the directory of its file cannot be examined, and the device is
inserted again. -/
def hiddenFile : List StoreCall :=
  [.reopen (some .cannotExamine), .insert sampleRecord wholeWrite]

theorem revocation_undone :
    ¬ ∀ (Line : Type) (env : Environment Line) (config : TrustedDeviceStoreConfig)
      (session : Session Line) (id : CredentialId) (now : Int64) (how : Flush),
      (session.revoke env config id now how).1 = some (.ok ()) →
      ∀ calls : List StoreCall, (∀ how, .remove id how ∉ calls) → ∀ cap later,
        (run (fun session call => (session.serve env config call).2)
          (session.revoke env config id now how).2 calls).store.checkCapability id cap later ≠
            .ok true := by
  intro final
  refine final _ plainLines sampleConfig sampleSession sampleId 2 wholeWrite rfl hiddenFile ?_
    .chat 3 rfl
  intro how member
  simp [hiddenFile] at member

end A3Net.Pairing
