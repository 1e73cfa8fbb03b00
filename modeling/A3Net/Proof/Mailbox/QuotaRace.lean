import A3Net.Construction.Mailbox.Server
import A3Net.Machine.Text
import A3Net.Proof.Mailbox.Delivery
import Mathlib.Algebra.Order.BigOperators.Group.List
import Mathlib.Algebra.Order.Ring.Nat

namespace A3Net.Mailbox

open Machine MailboxServer List MemoryStore Function Nat StoredEnvelope

/-- The unexpired envelopes of each recipient stay within the configured quota at any time. -/
def WithinQuota {Task : Type} (config : MailboxConfig) (server : MailboxServer Task) : Prop :=
  ∀ recipientId now,
    let live := MemoryStore.unexpired now (server.store.bucket recipientId)
    live.length ≤ config.maxInflightPerUser ∧ (live.map wireSize).sum ≤ config.maxTotalBytesPerUser

/-- The recipient of a new envelope has no more than what the check of its request saw. -/
def StillCurrent (store : MemoryStore) : HandlerPhase → Prop
  | .checked envelope usage =>
    let bucket := store.bucket envelope.recipientId
    bucket.find? envelope.repeats = none →
      bucket.length ≤ usage.messageCount ∧ (bucket.map wireSize).sum ≤ usage.totalBytes
  | _ => True

instance (store : MemoryStore) (phase : HandlerPhase) : Decidable (StillCurrent store phase) := by
  cases phase <;> dsimp only [StillCurrent] <;> infer_instance

/-- A request stores its envelope only while its check is still current. -/
def Undisturbed {Task : Type} (server : MailboxServer Task) : ServerEvent Task → Prop
  | .persist task => StillCurrent server.store (server.phase task)
  | _ => True

instance {Task : Type} (server : MailboxServer Task) (event : ServerEvent Task) :
    Decidable (Undisturbed server event) := by
  cases event <;> dsimp only [Undisturbed] <;> infer_instance

/-- The caps that the server checks are within the configured ones. -/
structure MailboxConfig.Covers (config : MailboxConfig) : Prop where
  inflight : defaultMaxInflightPerUser ≤ config.maxInflightPerUser
  totalBytes : defaultMaxTotalBytesPerUser ≤ config.maxTotalBytesPerUser

/-- The envelopes fit the caps that the server checks. -/
structure Fits (count bytes : Nat) : Prop where
  inflight : count ≤ defaultMaxInflightPerUser
  totalBytes : bytes ≤ defaultMaxTotalBytesPerUser

def BucketFits (bucket : List StoredEnvelope) : Prop :=
  Fits bucket.length (bucket.map wireSize).sum

theorem BucketFits.sublist {bucket fewer : List StoredEnvelope} (fits : BucketFits bucket)
    (part : fewer.Sublist bucket) : BucketFits fewer :=
  ⟨part.length_le.trans fits.inflight,
    ((part.map _).sum_le_sum fun _ _ => zero_le _).trans fits.totalBytes⟩

/-- Saturation changes no decision, because no cap is the greatest word. -/
theorem QuotaPolicy.check_accept {policy : QuotaPolicy} {check : QuotaCheck}
    (small : policy.maxTotalBytesPerUser < 2 ^ 64 - 1) (accepted : policy.check check = .accept) :
    check.currentMessageCount + 1 ≤ policy.maxInflightPerUser ∧
      check.currentTotalBytes + check.incomingEnvelopeBytes ≤ policy.maxTotalBytesPerUser := by
  unfold QuotaPolicy.check at accepted
  split at accepted
  · cases accepted
  · dsimp only at accepted
    split at accepted
    · cases accepted
    · omega

variable {envelope : StoredEnvelope} {usage : QuotaUsage}

/-- The check accepts an envelope only when it fits beside the usage. -/
theorem fits_of_checkQuota {state : ServerState}
    (accepted : state.checkQuota envelope usage = .ok ()) :
    Fits (usage.messageCount + 1) (usage.totalBytes + envelope.wireSize) := by
  unfold ServerState.checkQuota at accepted
  split at accepted
  · cases accepted
  · next decision =>
    obtain ⟨inflight, totalBytes⟩ := QuotaPolicy.check_accept
      (by decide : defaultMaxTotalBytesPerUser < 2 ^ 64 - 1) decision
    exact ⟨inflight, totalBytes⟩

/-- Only a new envelope reaches the bucket of its recipient. -/
theorem MemoryStore.bucket_enqueue (store : MemoryStore) (recipientId : String) :
    (store.enqueue envelope).1.bucket recipientId =
      if recipientId = envelope.recipientId ∧
          (store.bucket envelope.recipientId).find? envelope.repeats = none then
        store.bucket recipientId ++
          [{envelope with sequence := nextSequence (store.bucket envelope.recipientId)}]
      else store.bucket recipientId := by
  cases found : (store.bucket envelope.recipientId).find? envelope.repeats with
  | some existing => simp [enqueue, found]
  | none =>
    simp only [enqueue, found, bucket_insert]
    by_cases same : recipientId = envelope.recipientId <;> simp [same]

namespace MailboxServer

variable {Task : Type} {server : MailboxServer Task}

/-- Every bucket fits, and so does every accepted envelope beside the usage of its check. -/
structure Capped (server : MailboxServer Task) : Prop where
  stored : ∀ recipientId, BucketFits (server.store.bucket recipientId)
  passed : ∀ task envelope usage, server.phase task = .checked envelope usage →
    Fits (usage.messageCount + 1) (usage.totalBytes + envelope.wireSize)

theorem Capped.store (capped : Capped server) {store : MemoryStore}
    (stored : ∀ recipientId, BucketFits (store.bucket recipientId)) :
    Capped {server with store} :=
  ⟨stored, capped.passed⟩

theorem Capped.start (state : ServerState) : Capped (start state : MailboxServer Task) where
  stored _ := ⟨zero_le _, zero_le _⟩
  passed _ _ _ found := by cases found

theorem Capped.withinQuota (capped : Capped server) {config : MailboxConfig}
    (covers : config.Covers) : WithinQuota config server := by
  intro recipientId now
  have fits : BucketFits (unexpired now (server.store.bucket recipientId)) :=
    (capped.stored recipientId).sublist filter_sublist
  exact ⟨fits.inflight.trans covers.inflight, fits.totalBytes.trans covers.totalBytes⟩

variable [DecidableEq Task] (task : Task)

theorem goto_phase (phase : HandlerPhase) :
    (server.goto task phase).phase = update server.phase task phase := rfl

section

variable (capped : Capped server)
include capped

variable (task : Task)

theorem Capped.goto {phase : HandlerPhase}
    (passed : ∀ envelope usage, phase = .checked envelope usage →
      Fits (usage.messageCount + 1) (usage.totalBytes + envelope.wireSize)) :
    Capped (server.goto task phase) where
  stored := capped.stored
  passed other envelope usage found := by
    rw [goto_phase] at found
    by_cases same : other = task
    · rw [same, update_self] at found
      exact passed envelope usage found
    · rw [update_of_ne same] at found
      exact capped.passed other envelope usage found

theorem Capped.receive (recipientId : String)
    (req : EnqueueRequest) (now : DateTime) :
    Capped (server.receive task recipientId req now) := by
  unfold MailboxServer.receive
  split
  · split <;> exact capped.goto task (by simp)
  · exact capped

theorem Capped.check : Capped (server.check task) := by
  unfold MailboxServer.check
  split
  · dsimp only
    split
    · exact capped.goto task (by simp)
    · next accepted =>
      refine capped.goto task fun envelope usage same => ?_
      obtain ⟨rfl, rfl⟩ := HandlerPhase.checked.inj same
      exact fits_of_checkQuota accepted
  · exact capped

/-- A new envelope fits when the bucket has not grown since the check. -/
theorem Capped.persist
    (undisturbed : Undisturbed server (.persist task)) : Capped (server.persist task) := by
  cases phase : server.phase task with
  | checked envelope usage =>
    have fits := capped.passed task envelope usage phase
    simp only [Undisturbed, phase, StillCurrent] at undisturbed
    simp only [MailboxServer.persist, phase]
    refine (capped.store fun recipientId => ?_).goto task (by simp)
    rw [MemoryStore.bucket_enqueue]
    split
    · next stores =>
      obtain ⟨rfl, fresh⟩ := stores
      obtain ⟨count, bytes⟩ := undisturbed fresh
      have size : ∀ sequence, wireSize {envelope with sequence} = envelope.wireSize := fun _ => rfl
      constructor
      · rw [length_append, length_singleton]
        exact (Nat.add_le_add_right count 1).trans fits.inflight
      · rw [map_append, sum_append_nat, map_singleton, sum_singleton, size]
        exact (Nat.add_le_add_right bytes _).trans fits.totalBytes
    · exact capped.stored recipientId
  | _ =>
    simp only [MailboxServer.persist, phase]
    exact capped

theorem Capped.step (event : ServerEvent Task)
    (undisturbed : Undisturbed server event) : Capped (server.step event) := by
  cases event with
  | receive task recipientId req now => exact capped.receive task recipientId req now
  | check task => exact capped.check task
  | persist task => exact capped.persist task undisturbed
  | ack recipientId msgIds =>
    refine capped.store fun other => ?_
    have kept := represents.ack server.store recipientId msgIds other
    exact kept ▸ (capped.stored other).sublist filter_sublist
  | sweep now =>
    refine capped.store fun other => ?_
    have kept := represents.purge server.store now other
    exact kept ▸ (capped.stored other).sublist filter_sublist

end

/-- The unexpired envelopes stay within the configured quota in every run in which the
configuration covers the caps that the server checks and no request is disturbed between its check
and its store step. -/
theorem quota_kept (config : MailboxConfig) (covers : config.Covers) (auth : Auth)
    (retention : RetentionPolicy) (latest : DateTime) (events : List (ServerEvent Task))
    (guarded : Guarded step Undisturbed
      (start ⟨auth, .fromConfig config, retention, latest⟩ : MailboxServer Task) events) :
    Always step (WithinQuota config)
      (start ⟨auth, .fromConfig config, retention, latest⟩ : MailboxServer Task) events := by
  have capped : Always step Capped
      (start ⟨auth, .fromConfig config, retention, latest⟩ : MailboxServer Task) events :=
    Guarded.always step (fun _ event capped => capped.step event) (Capped.start _) guarded
  exact fun past short => (capped past short).withinQuota covers

end MailboxServer

/-- The sample checks accept every text as an address and decode every text to no bytes. -/
def sampleAuth : Auth where
  validateRecipientId := .ok
  validateMsgId _ := .ok ()
  decodeBase64 _ := .ok []
  verifySenderSignature _ _ _ _ _ := .ok ()
  verifySenderSignatureWithTimestamp _ _ _ _ _ _ _ _ := .ok ()

def sampleServer (config : MailboxConfig) : MailboxServer Nat :=
  .start ⟨sampleAuth, .fromConfig config, {}, 8210266876799999999999⟩

def sampleRequest (number : Nat) : EnqueueRequest :=
  ⟨"alice", String.ofList (padded 32 number), "", "", none, none⟩

/-- The first request ends before the second one begins. -/
def oneByOne : List (ServerEvent Nat) :=
  [.receive 0 "bob" (sampleRequest 0) 0, .check 0, .persist 0,
    .receive 1 "bob" (sampleRequest 1) 0, .check 1, .persist 1]

theorem oneByOne_kept :
    Always MailboxServer.step (WithinQuota {}) (sampleServer {}) oneByOne :=
  quota_kept {} ⟨le_refl _, le_refl _⟩ sampleAuth {}
    8210266876799999999999 oneByOne (by decide +kernel)

/-- This is the envelope of a sample request at time zero. -/
def requestedEnvelope (state : ServerState) (number : Nat) : StoredEnvelope :=
  ⟨"alice", "bob", String.ofList (padded 32 number), [], [], 0, 0,
    0 + ServerState.lifetime (state.retention.effectiveTtl "bob" state.policy.defaultTtl)⟩

/-- So many requests have passed their check, and nothing is stored. -/
def checkedBy (state : ServerState) (count : Nat) : MailboxServer Nat :=
  ⟨state, {}, fun number =>
    if number < count then .checked (requestedEnvelope state number) ⟨0, 0, 0⟩ else .idle⟩

/-- Each request passes its check while the store is still empty. -/
def checkAll (count : Nat) : List (ServerEvent Nat) :=
  (List.range count).flatMap fun number =>
    [.receive number "bob" (sampleRequest number) 0, .check number]

def persistAll (count : Nat) : List (ServerEvent Nat) := (List.range count).map .persist

variable {state : ServerState} {count total : Nat} {server : MailboxServer Nat}

theorem checkQuota_sample (number : Nat) :
    state.checkQuota (requestedEnvelope state number) ⟨0, 0, 0⟩ = .ok () := by
  rfl

/-- The envelopes before the count are stored, and the other requests are still to store theirs. -/
structure Storing (state : ServerState) (total count : Nat) (server : MailboxServer Nat) :
    Prop where
  stored : server.store.bucket "bob" = (List.range count).map fun number =>
    {requestedEnvelope state number with sequence := number + 1}
  passed : ∀ number < total, count ≤ number →
    server.phase number = .checked (requestedEnvelope state number) ⟨0, 0, 0⟩

theorem Storing.next (storing : Storing state total count server) (below : count < total) :
    Storing state total (count + 1) (server.persist count) := by
  have fresh : (server.store.bucket "bob").find? (requestedEnvelope state count).repeats =
      none := by
    rw [storing.stored, find?_eq_none]
    intro envelope member repeats
    obtain ⟨number, earlier, rfl⟩ := mem_map.mp member
    rw [StoredEnvelope.repeats, Bool.and_eq_true] at repeats
    have same := padded_injective 32 (String.ofList_injective (of_decide_eq_true repeats.1))
    have := mem_range.mp earlier
    omega
  simp only [MailboxServer.persist, storing.passed count below (le_refl count)]
  refine ⟨?_, fun number within above => ?_⟩
  · refine (bucket_enqueue server.store "bob").trans ?_
    rw [if_pos ⟨rfl, fresh⟩, range_succ, map_append, ← storing.stored]
    have length : (server.store.bucket "bob").length = count := by
      rw [storing.stored, length_map, length_range]
    rw [nextSequence, show (requestedEnvelope state count).recipientId = "bob" from rfl, length]
    rfl
  · exact (update_of_ne (by omega) _ _).trans (storing.passed number within (by omega))

theorem storing_persistAll (start : Storing state total 0 server) (within : count ≤ total) :
    Storing state total count (run MailboxServer.step server (persistAll count)) := by
  induction count with
  | zero => exact start
  | succ count ih =>
    rw [persistAll, range_succ, map_append, run_append]
    exact (ih (by omega)).next (by omega)

section Overlap

variable (auth : state.auth = sampleAuth)
    (calendar : ¬ state.latest < (requestedEnvelope state 0).expiresAt)
    (room : ¬ state.policy.maxEnvelopeBytes < 180)
include auth calendar room

theorem prepare_sampleRequest (number : Nat) :
    state.prepare "bob" (sampleRequest number) 0 = .ok (requestedEnvelope state number) := by
  have passes : state.policy.sizePolicy.check (requestedEnvelope state number) = .ok () :=
    if_neg room
  have prepared : state.prepare "bob" (sampleRequest number) 0 =
      state.build ⟨"alice", "bob", [], []⟩ (sampleRequest number) 0 := by
    rw [ServerState.prepare, ServerState.authenticate, auth]
    rfl
  rw [prepared, ServerState.build]
  refine (if_neg calendar).trans ?_
  dsimp only
  split
  · next failed => cases failed.symm.trans passes
  · rfl

theorem run_checkAll (count : Nat) :
    run MailboxServer.step (.start state) (checkAll count) = checkedBy state count := by
  induction count with
  | zero => rfl
  | succ count ih =>
    have idle : (checkedBy state count).phase count = .idle := if_neg (lt_irrefl count)
    have usage : (checkedBy state count).store.quotaUsage "bob" = ⟨0, 0, 0⟩ := rfl
    have prepared := prepare_sampleRequest auth calendar room count
    rw [checkAll, range_succ, flatMap_append, run_append, ← checkAll, ih]
    simp only [flatMap_singleton, run_cons, run_nil, MailboxServer.step, MailboxServer.receive, idle,
      show (checkedBy state count).state = state from rfl, prepared, MailboxServer.check,
      MailboxServer.goto, update_self]
    rw [show (requestedEnvelope state count).recipientId = "bob" from rfl, usage]
    simp only [checkQuota_sample, update_idem]
    refine congrArg (MailboxServer.mk state {}) (funext fun number => ?_)
    by_cases same : number = count
    · simp [same]
    · have within : number < count + 1 ↔ number < count := by omega
      simp [checkedBy, same, within]

/-- All requests pass their check before the first one stores, and then all of them store. -/
theorem live_overlap (lives : 0 < (requestedEnvelope state 0).expiresAt) (count : Nat) :
    (MemoryStore.unexpired 0 ((run MailboxServer.step (.start state)
      (checkAll count ++ persistAll count)).store.bucket "bob")).length = count := by
  have start : Storing state count 0 (checkedBy state count) :=
    ⟨rfl, fun number within _ => if_pos within⟩
  have storing := storing_persistAll start (le_refl count)
  rw [run_append, run_checkAll auth calendar room, storing.stored, MemoryStore.unexpired, filter_eq_self.mpr,
    length_map, length_range]
  intro envelope member
  obtain ⟨number, -, rfl⟩ := mem_map.mp member
  exact decide_eq_true lives

end Overlap

/-- Overlapping requests pass the quota although the configuration covers the caps, and a lower
configured quota is passed without any overlap. -/
theorem quota_not_kept :
    (¬ ∀ (config : MailboxConfig) (auth : Auth) (retention : RetentionPolicy) (latest : DateTime)
      (events : List (ServerEvent Nat)), config.Covers →
        Always MailboxServer.step (WithinQuota config)
          (.start ⟨auth, .fromConfig config, retention, latest⟩) events) ∧
    ¬ ∀ (config : MailboxConfig) (auth : Auth) (retention : RetentionPolicy) (latest : DateTime)
      (events : List (ServerEvent Nat)),
        Guarded MailboxServer.step Undisturbed
          (.start ⟨auth, .fromConfig config, retention, latest⟩) events →
        Always MailboxServer.step (WithinQuota config)
          (.start ⟨auth, .fromConfig config, retention, latest⟩) events := by
  constructor
  · intro kept
    have within := kept {} sampleAuth {} 8210266876799999999999
      (checkAll 1001 ++ persistAll 1001) ⟨le_refl _, le_refl _⟩
    have live := @live_overlap (sampleServer {}).state rfl (by decide +kernel)
      (by decide +kernel) (by decide +kernel) 1001
    have bound := live.symm.trans_le (Always.final _ within "bob" 0).1
    revert bound
    decide
  · intro kept
    have within := kept {maxInflightPerUser := 1} sampleAuth {} 8210266876799999999999 oneByOne
      (by decide +kernel)
    have bound := (Always.final _ within "bob" 0).1
    revert bound
    decide +kernel

end A3Net.Mailbox
